/-
What a board boots.  A ProxyDHCP reply names a file, the board asks the TFTP server for
it, and a session brings it over.  Together they deliver the file that is kept below the
root of the TFTP server for the board the MAC address is registered for.
-/
import PiCluster.ProxyDhcp
import PiCluster.TftpTermination

namespace PiCluster

open Text Bytes UnixPath Dhcp

namespace ProxyDhcpServer

/-- The entry below the root of the TFTP server that a board is sent to. -/
def bootEntry (server : ProxyDhcpServer) (mac : Str) : List Str :=
  match server.registered.bind (selectNode mac) with
  | some object => [object.node.spec.hardwareSerial, "bootcode.bin".toList]
  | none => [server.bootFile]

theorem bootEntry_ne_nil (server : ProxyDhcpServer) (mac : Str) :
    server.bootEntry mac ≠ [] := by
  unfold bootEntry
  split
  · exact List.cons_ne_nil _ _
  · exact List.cons_ne_nil _ _

theorem resolveBootFile_eq (server : ProxyDhcpServer) (mac : Str) :
    resolveBootFile server.bootFile server.registered mac =
      ['/'].intercalate (server.bootEntry mac) := by
  unfold resolveBootFile bootEntry
  cases server.registered.bind (selectNode mac) with
  | some object =>
      dsimp only
      rw [List.intercalate_cons_cons, List.intercalate_singleton, List.append_assoc]
      rfl
  | none => exact List.intercalate_singleton.symm

end ProxyDhcpServer

namespace Tftp

/-- The size of the buffer the server receives requests with. -/
def receiveBuffer : Nat := 1024

/-- A turn of the server's `run`: what fits the buffer starts a session. -/
def receiveDatagram (platform : Platform) (rootDir : Str) (files : Str → FileState)
    (datagram : Packet) : InitialOutcome :=
  handleInitialPacket platform rootDir files (datagram.take receiveBuffer)

/-- A read request as it stands in a datagram. -/
def rrqPacket (filename mode : Str) (options : List (Str × Str)) : Packet :=
  toBeBytes opRrq ++ encodeRrq filename mode options

theorem readRequest_rrqPacket (lowercase : Str → Str) {filename mode : Str}
    {options : List (Str × Str)} (hfilename : NulFree filename) (hmode : NulFree mode)
    (hoptions : ∀ pair ∈ options, NulFree pair.1 ∧ NulFree pair.2) :
    readRequest lowercase (rrqPacket filename mode options) =
      .ok (some ⟨filename, lowercase mode,
        options.map fun pair => (lowercase pair.1, pair.2)⟩) := by
  have hlength : ¬ (rrqPacket filename mode options).length < 4 := by
    simp only [rrqPacket, toBeBytes, encodeRrq, encodeField, List.length_append,
      List.length_cons, List.length_nil]
    omega
  have hop : fromBeBytes (UInt8.ofNat (opRrq.toNat / 256)) (UInt8.ofNat (opRrq.toNat % 256)) =
      opRrq := fromBeBytes_toBeBytes opRrq
  unfold readRequest
  rw [if_neg hlength]
  change (if fromBeBytes _ _ ≠ opRrq then Except.ok none
    else (parseRrq lowercase (encodeRrq filename mode options)).map some) = _
  rw [hop, if_neg (not_not.mpr rfl), parseRrq_eq lowercase hfilename hmode hoptions]
  rfl

/-- The path of a name without a leading separator. -/
theorem targetPath_of_relative {filename : Str} (hrelative : hasRoot filename = false)
    (rootDir : Str) : targetPath rootDir filename = UnixPath.join rootDir filename := by
  have htrim : trimStartMatches (· == '/') filename = filename := by
    cases filename with
    | nil => rfl
    | cons c rest =>
        have hc : (c == '/') = false := by simpa [hasRoot] using hrelative
        rw [trimStartMatches, List.dropWhile_cons_of_neg (by simpa using hc)]
  rw [targetPath, htrim]

theorem stored_of_complete {session : Session} (hannounces : session.Announces)
    {events : List NetEvent}
    (htimely : StepRun.Meets (Link.step session) Link.Timely (Link.initial session) events)
    (hcomplete : (Link.run session events).server = .complete) :
    (Link.run session events).client.stored = session.content := by
  have hrun : (Link.run session events).server = .aborted ∨
      LinkInv session (Link.run session events) :=
    htimely.foldl_inv (linkInv_step hannounces) (Or.inr (linkInv_initial hannounces))
  have hinv : LinkInv session (Link.run session events) :=
    hrun.resolve_left fun habort => by rw [habort] at hcomplete; cases hcomplete
  have hstage := hinv.stage
  rw [hcomplete] at hstage
  exact hstage.2.2

end Tftp

theorem nulFree_intercalate {names : List Str} (hnames : ∀ name ∈ names, Tftp.NulFree name) :
    Tftp.NulFree (['/'].intercalate names) := by
  induction names with
  | nil => exact List.not_mem_nil
  | cons name rest ih =>
      obtain ⟨hname, hrest⟩ := List.forall_mem_cons.mp hnames
      cases rest with
      | nil => rwa [List.intercalate_singleton]
      | cons second rest =>
          rw [List.intercalate_cons_cons]
          intro hmem
          rcases List.mem_append.mp hmem with hleft | hright
          · rcases List.mem_append.mp hleft with hleft | hsep
            · exact hname hleft
            · exact absurd (List.mem_singleton.mp hsep) (by decide)
          · exact ih hrest hright

/-- The file name a client reads off a reply. -/
def Dhcp.Message.bootFilename (reply : Message) : Str := decodeLossy (reply.fname.getD [])

open ProxyDhcpServer Tftp

theorem bootFilename_of_processPacket {fields : BoundedFields} {server : ProxyDhcpServer}
    {request reply : Message} (hreply : server.processPacket fields request = .ok (some reply)) :
    reply.bootFilename =
      ['/'].intercalate (server.bootEntry (macString request.hardwareAddress)) := by
  rw [Message.bootFilename, (isReply_of_processPacket hreply).fname, ← resolveBootFile_eq]
  exact decodeLossy_asBytes _

/-- The reply to a client names a file whose request opens the entry kept for the client,
and a session that ends with its last block acknowledged has left the client with the
content of that entry. -/
theorem netboot_delivers {fields : BoundedFields} {server : ProxyDhcpServer}
    {request reply : Message} (hreply : server.processPacket fields request = .ok (some reply))
    (hentry : ∀ name ∈ server.bootEntry (macString request.hardwareAddress),
      PlainName name ∧ NulFree name)
    (platform : Platform) {rootDir : Str} (hroot : hasRoot rootDir = true)
    (files : Str → FileState) (mode : Str) (hmode : NulFree mode)
    (options : List (Str × Str))
    (hoptions : ∀ pair ∈ options, NulFree pair.1 ∧ NulFree pair.2)
    (hfits : (rrqPacket reply.bootFilename mode options).length ≤ receiveBuffer) :
    resolve (targetPath rootDir reply.bootFilename) =
        resolve rootDir ++ server.bootEntry (macString request.hardwareAddress) ∧
      ∀ content, files (targetPath rootDir reply.bootFilename) = .file content →
        ∃ session,
          receiveDatagram platform rootDir files (rrqPacket reply.bootFilename mode options) =
            .opened session ∧
          ∀ events,
            StepRun.Meets (Link.step session) Link.Timely (Link.initial session) events →
            (Link.run session events).server = .complete →
            (Link.run session events).client.stored = content := by
  have hplain : ∀ name ∈ server.bootEntry (macString request.hardwareAddress), PlainName name :=
    fun name hname => (hentry name hname).1
  rw [bootFilename_of_processPacket hreply] at hfits ⊢
  constructor
  · rw [targetPath_of_relative (hasRoot_intercalate hplain)]
    exact resolve_join_intercalate hroot (server.bootEntry_ne_nil _) hplain
  · intro content hfile
    have hfilename := nulFree_intercalate fun name hname => (hentry name hname).2
    have hread := readRequest_rrqPacket platform.lowercase hfilename hmode hoptions
    have hopened := (handleInitialPacket_eq_opened_iff platform rootDir files _ _).mpr
      ⟨_, content, hread, hfile, rfl⟩
    rw [receiveDatagram, List.take_of_length_le hfits]
    exact ⟨_, hopened, fun events htimely hcomplete =>
      stored_of_complete (openSession_announces platform _ content) htimely hcomplete⟩

namespace NetbootWitness

open Http.LookupWitness GateWitness TftpWitness DeliveryWitness

/-- The board is the second one that is listed. -/
def proxy : ProxyDhcpServer := { server with registered := some [stale, first] }

def discover : Message := message .discover "PXEClient:Arch:00000".toList

/-- The asset cache has a boot loader for the board. -/
def cached (path : Str) : FileState :=
  if resolve path = ["srv".toList, "tftp".toList, "aaaa".toList, "bootcode.bin".toList] then
    .file [1, 2, 3, 4]
  else .notFile

def asked : Rrq :=
  ⟨"aaaa/bootcode.bin".toList, "octet".toList, [(blksizeKey, "2".toList)]⟩

theorem entry_plain : ∀ name ∈ proxy.bootEntry (macString discover.hardwareAddress),
    PlainName name ∧ NulFree name := by
  have hentry : proxy.bootEntry (macString discover.hardwareAddress) =
      ["aaaa".toList, "bootcode.bin".toList] := by decide
  rw [hentry]
  intro name hname
  rcases List.mem_pair.mp hname with rfl | rfl
  · exact ⟨⟨by decide, by decide, by decide, by decide⟩,
      RequestWitness.nulFree_of_all (by decide)⟩
  · exact ⟨⟨by decide, by decide, by decide, by decide⟩,
      RequestWitness.nulFree_of_all (by decide)⟩

/-- The file name in the reply to the board. -/
theorem bootFilename_eq {reply : Message}
    (hreply : proxy.processPacket fields discover = .ok (some reply)) :
    reply.bootFilename = "aaaa/bootcode.bin".toList := by
  rw [bootFilename_of_processPacket hreply]
  decide

/-- Over a network that loses a packet and repeats one. -/
theorem board_gets_bootcode :
    (Link.run (openSession plain asked [1, 2, 3, 4]) schedule).client.stored = [1, 2, 3, 4] := by
  obtain ⟨reply, hreply⟩ : ∃ reply, proxy.processPacket fields discover = .ok (some reply) :=
    exists_reply_iff.mpr ⟨rfl, by decide, by decide,
      (length_bootFileFor_le_iff proxy discover).mp (by decide)⟩
  have hroot : hasRoot tftpRoot = true := by decide
  have hfits : (rrqPacket reply.bootFilename "octet".toList
      [(blksizeKey, "2".toList)]).length ≤ receiveBuffer := by
    rw [bootFilename_eq hreply]
    decide
  obtain ⟨-, hdelivers⟩ := netboot_delivers hreply entry_plain plain hroot cached
    "octet".toList (RequestWitness.nulFree_of_all (by decide)) [(blksizeKey, "2".toList)]
    (List.forall_mem_singleton.mpr
      ⟨RequestWitness.nulFree_of_all (by decide), RequestWitness.nulFree_of_all (by decide)⟩)
    hfits
  rw [bootFilename_eq hreply] at hdelivers
  obtain ⟨session, hopened, hstored⟩ := hdelivers [1, 2, 3, 4] rfl
  have hsession : session = openSession plain asked [1, 2, 3, 4] := by
    have hcomputed : receiveDatagram plain tftpRoot cached
        (rrqPacket "aaaa/bootcode.bin".toList "octet".toList [(blksizeKey, "2".toList)]) =
        .opened (openSession plain asked [1, 2, 3, 4]) := rfl
    exact (InitialOutcome.opened.inj (hcomputed.symm.trans hopened)).symm
  subst hsession
  exact hstored schedule (by decide) (by decide)

end NetbootWitness

end PiCluster
