/-
Delivery of a TFTP session over an unreliable network.  The invariant is the one
of stop-and-wait: the client has stored as many blocks as the server saw
acknowledged, or one more, and whatever is in flight was sent close enough to
the present for its 16-bit number to be unambiguous.
-/
import PiCluster.TftpRequest
import PiCluster.TftpTransfer

namespace PiCluster

namespace Tftp

open Text Bytes

section Packets

@[simp] theorem isAckOf_ackPacket (expected block : UInt16) :
    isAckOf expected (ackPacket block) = (block == expected) := by
  have hop : fromBeBytes (UInt8.ofNat (opAck.toNat / 256)) (UInt8.ofNat (opAck.toNat % 256))
      = opAck := fromBeBytes_toBeBytes opAck
  simp [isAckOf, ackPacket, toBeBytes, hop, fromBeBytes_toBeBytes]

theorem receive_data (client : Client) (block : UInt16) (data : List UInt8) :
    client.receive (buildDataPacket block data) =
      if client.finished = false ∧ block = .ofNat (client.count + 1) then
        (client.store data, [ackPacket (.ofNat (client.count + 1))])
      else (client, client.reAck) := by
  have hop : fromBeBytes (UInt8.ofNat (opData.toNat / 256)) (UInt8.ofNat (opData.toNat % 256))
      = opData := fromBeBytes_toBeBytes opData
  have hne : opData ≠ opOack := by decide
  simp only [Client.receive, buildDataPacket, toBeBytes, List.cons_append, List.nil_append,
    hop, hne, ↓reduceIte, fromBeBytes_toBeBytes]

theorem receive_oack (client : Client) (options : List (Str × Str)) :
    client.receive (buildOackPacket options) =
      if client.answered then (client, client.reAck)
      else ({ client with
        blockSize := announcedBlockSize (buildOackPacket options), answered := true },
        [ackPacket 0]) := by
  have hop : fromBeBytes (UInt8.ofNat (opOack.toNat / 256)) (UInt8.ofNat (opOack.toNat % 256))
      = opOack := fromBeBytes_toBeBytes opOack
  simp only [Client.receive, buildOackPacket, toBeBytes, List.cons_append, List.nil_append,
    hop, ↓reduceIte]

end Packets

namespace Session

/-- Block number `index`, counted from zero. -/
def block (session : Session) (index : Nat) : List UInt8 :=
  (session.content.drop (index * session.blockSize)).take session.blockSize

theorem take_append_block (session : Session) (index : Nat) :
    session.content.take (index * session.blockSize) ++ session.block index =
      session.content.take ((index + 1) * session.blockSize) := by
  rw [block, ← List.take_add, Nat.succ_mul]

theorem length_block_le (session : Session) (index : Nat) :
    (session.block index).length ≤ session.blockSize :=
  List.length_take_le _ _

/-- A short block is the last one. -/
theorem take_eq_content_of_short {session : Session} {index : Nat}
    (hshort : (session.block index).length < session.blockSize) :
    session.content.take ((index + 1) * session.blockSize) = session.content := by
  apply List.take_of_length_le
  simp only [block, List.length_take, List.length_drop] at hshort
  rw [Nat.succ_mul]
  omega

/-- What the client learns of the block size is what the server uses. -/
structure Announces (session : Session) : Prop where
  silent : session.oack = none → session.blockSize = defaultBlockSize
  oack : ∀ packet, session.oack = some packet →
    ∃ options, packet = buildOackPacket options ∧
      announcedBlockSize packet = session.blockSize

end Session

/-- What a packet in flight can be. -/
inductive DatagramOk (session : Session) (server : Server) (client : Client) (acked : Nat) :
    Datagram → Prop
  | oack (packet : Packet) (sentAt : Nat) (hoack : session.oack = some packet) :
      DatagramOk session server client acked ⟨.client, packet, sentAt⟩
  | data (index : Nat) (hindex : index ≤ acked) (hserver : server ≠ .awaitingAck0) :
      DatagramOk session server client acked
        ⟨.client, buildDataPacket (.ofNat (index + 1)) (session.block index), index⟩
  | ack (count sentAt : Nat) (hsent : sentAt ≤ count) (hcount : count ≤ client.count)
      (hanswered : client.answered = true) :
      DatagramOk session server client acked ⟨.server, ackPacket (.ofNat count), sentAt⟩

theorem DatagramOk.mono {session : Session} {server server' : Server}
    {client client' : Client} {acked acked' : Nat} {datagram : Datagram}
    (hok : DatagramOk session server client acked datagram)
    (hserver : server ≠ .awaitingAck0 → server' ≠ .awaitingAck0)
    (hcount : client.count ≤ client'.count)
    (hanswered : client.answered = true → client'.answered = true)
    (hacked : acked ≤ acked') :
    DatagramOk session server' client' acked' datagram := by
  cases hok with
  | oack packet sentAt hoack => exact .oack packet sentAt hoack
  | data index hindex hstarted => exact .data index (by omega) (hserver hstarted)
  | ack count sentAt hsent hle hans => exact .ack count sentAt hsent (by omega) (hanswered hans)

/-- The client while the server waits for the answer to its options. -/
structure Awaiting (session : Session) (client : Client) (acked : Nat) : Prop where
  offered : session.oack.isSome = true
  acked_eq : acked = 0
  count_eq : client.count = 0
  stored_eq : client.stored = []
  finished_eq : client.finished = false
  agreed : client.answered = true → client.blockSize = session.blockSize

/-- Both parties while a block is being sent. -/
structure Synced (session : Session) (client : Client) (acked : Nat) (blockNum : UInt16)
    (offset : Nat) (data : List UInt8) : Prop where
  blockNum_eq : blockNum = .ofNat (acked + 1)
  data_eq : data = session.block acked
  offset_eq : offset = acked * session.blockSize + data.length
  answered : session.oack.isSome = true → client.answered = true
  agreed : client.blockSize = session.blockSize
  stored_eq : client.stored = session.content.take (client.count * session.blockSize)
  finished_iff : client.finished = true ↔
    client.count = acked + 1 ∧ data.length < session.blockSize

def Stage (session : Session) (client : Client) (acked : Nat) : Server → Prop
  | .awaitingAck0 => Awaiting session client acked
  | .sending blockNum offset data _ => Synced session client acked blockNum offset data
  | .complete => client.answered = true ∧ client.finished = true ∧
      client.stored = session.content
  | .aborted => True

structure LinkInv (session : Session) (link : Link) : Prop where
  bounds : link.acked ≤ link.client.count ∧ link.client.count ≤ link.acked + 1
  flight : ∀ datagram ∈ link.inFlight,
    DatagramOk session link.server link.client link.acked datagram
  stage : Stage session link.client link.acked link.server

theorem mem_send {dest : Party} {sentAt : Nat} {packets : List Packet} {datagram : Datagram}
    (hmem : datagram ∈ Link.send dest sentAt packets) :
    ∃ packet ∈ packets, datagram = ⟨dest, packet, sentAt⟩ := by
  obtain ⟨packet, hpacket, rfl⟩ := List.mem_map.mp hmem
  exact ⟨packet, hpacket, rfl⟩

/-- The invariant after a step: what was in flight stays in flight, and what the
step sent is checked separately. -/
theorem LinkInv.update {session : Session} {link : Link} (hinv : LinkInv session link)
    {server : Server} {client : Client} {acked : Nat} {sent : List Datagram}
    (hserver : link.server ≠ .awaitingAck0 → server ≠ .awaitingAck0)
    (hcount : link.client.count ≤ client.count)
    (hanswered : link.client.answered = true → client.answered = true)
    (hacked : link.acked ≤ acked)
    (hbounds : acked ≤ client.count ∧ client.count ≤ acked + 1)
    (hsent : ∀ datagram ∈ sent, DatagramOk session server client acked datagram)
    (hstage : Stage session client acked server) :
    LinkInv session ⟨server, client, link.inFlight ++ sent, acked⟩ where
  bounds := hbounds
  flight := by
    intro datagram hmem
    rcases List.mem_append.mp hmem with hold | hnew
    · exact (hinv.flight datagram hold).mono hserver hcount hanswered hacked
    · exact hsent datagram hnew
  stage := hstage

/-- Dropping or repeating packets keeps the invariant. -/
theorem LinkInv.reflight {session : Session} {link : Link} (hinv : LinkInv session link)
    {inFlight : List Datagram} (hsub : ∀ datagram ∈ inFlight, datagram ∈ link.inFlight) :
    LinkInv session { link with inFlight := inFlight } where
  bounds := hinv.bounds
  flight := fun datagram hmem => hinv.flight datagram (hsub datagram hmem)
  stage := hinv.stage

/-- A repeated acknowledgement is sent within the window. -/
theorem LinkInv.reAck {session : Session} {link : Link} (hinv : LinkInv session link) :
    ∀ datagram ∈ Link.send .server link.acked link.client.reAck,
      DatagramOk session link.server link.client link.acked datagram := by
  intro datagram hmem
  obtain ⟨packet, hpacket, rfl⟩ := mem_send hmem
  unfold Client.reAck at hpacket
  split at hpacket
  · rename_i hanswered
    obtain rfl := List.mem_singleton.mp hpacket
    exact .ack link.client.count link.acked hinv.bounds.1 le_rfl hanswered
  · simp at hpacket

theorem LinkInv.timeoutClient {session : Session} {link : Link}
    (hinv : LinkInv session link) : LinkInv session link.timeoutClient :=
  hinv.update id le_rfl id le_rfl hinv.bounds hinv.reAck hinv.stage

theorem LinkInv.timeoutServer {session : Session} {link : Link}
    (hinv : LinkInv session link) :
    link.timeoutServer.server = .aborted ∨ LinkInv session link.timeoutServer := by
  have hstage := hinv.stage
  unfold Link.timeoutServer
  cases hserver : link.server with
  | awaitingAck0 => exact Or.inl rfl
  | aborted => exact Or.inl rfl
  | complete =>
      right
      refine hinv.update (by simp [Session.timeout]) le_rfl id le_rfl hinv.bounds
        (by simp [Session.timeout, Link.send]) ?_
      simpa [hserver, Session.timeout] using hstage
  | sending blockNum offset data retries =>
      simp only [hserver, Stage] at hstage
      by_cases hretry : retries + 1 < maxRetries
      · right
        simp only [Session.timeout, hretry, ↓reduceIte]
        refine hinv.update (by simp) le_rfl id le_rfl hinv.bounds ?_ hstage
        intro datagram hmem
        obtain ⟨packet, hpacket, rfl⟩ := mem_send hmem
        obtain rfl := List.mem_singleton.mp hpacket
        rw [hstage.blockNum_eq, hstage.data_eq]
        exact .data link.acked le_rfl (by simp)
      · left
        simp [Session.timeout, hretry]

/-- The server reads the next block when the client has stored all before it. -/
theorem LinkInv.readBlock {session : Session} {link : Link} (hinv : LinkInv session link)
    {acked offset : Nat} {blockNum : UInt16} (hacked : link.acked ≤ acked)
    (hcount : link.client.count = acked) (hblockNum : blockNum = .ofNat (acked + 1))
    (hoffset : offset = acked * session.blockSize)
    (hanswered : session.oack.isSome = true → link.client.answered = true)
    (hagreed : link.client.blockSize = session.blockSize)
    (hstored : link.client.stored = session.content.take (acked * session.blockSize))
    (hfinished : link.client.finished = false) :
    LinkInv session ⟨(session.readBlock blockNum offset).1, link.client,
      link.inFlight ++ Link.send .client acked (session.readBlock blockNum offset).2,
      acked⟩ := by
  have hdata : (session.content.drop offset).take session.blockSize =
      session.block acked := by rw [hoffset, Session.block]
  have hread : session.readBlock blockNum offset =
      (.sending blockNum (offset + (session.block acked).length) (session.block acked) 0,
        [buildDataPacket blockNum (session.block acked)]) := by
    simp only [Session.readBlock, hdata]
  rw [hread]
  refine hinv.update (by simp) le_rfl id hacked (by omega) ?_ ?_
  · intro datagram hmem
    obtain ⟨packet, hpacket, rfl⟩ := mem_send hmem
    obtain rfl := List.mem_singleton.mp hpacket
    rw [hblockNum]
    exact .data acked le_rfl (by simp)
  · exact {
      blockNum_eq := hblockNum
      data_eq := rfl
      offset_eq := by rw [hoffset]
      answered := hanswered
      agreed := hagreed
      stored_eq := by rw [hcount, hstored]
      finished_iff := by
        rw [hfinished, hcount]
        simp }

/-- A server that does not accept the packet keeps waiting. -/
theorem LinkInv.ignore {session : Session} {link : Link} (hinv : LinkInv session link) :
    LinkInv session ⟨link.server, link.client, link.inFlight ++ Link.send .client link.acked [],
      link.acked⟩ :=
  hinv.update id le_rfl id le_rfl hinv.bounds (by simp [Link.send]) hinv.stage

/-- The acknowledgement the server accepts is the one of its current block. -/
theorem ack_current {count sentAt acked clientCount : Nat} (hsent : sentAt ≤ count)
    (hcount : count ≤ clientCount) (hclient : clientCount ≤ acked + 1)
    (htimely : acked < sentAt + 65535)
    (heq : UInt16.ofNat count = .ofNat (acked + 1)) : count = acked + 1 :=
  ofNat_inj_of_window (by omega) (by omega) heq

/-- The block in hand was acknowledged: the next one is read, unless it was the
last. -/
theorem LinkInv.acknowledged {session : Session} {link : Link} (hinv : LinkInv session link)
    {blockNum : UInt16} {offset : Nat} {data : List UInt8} {retries : Nat}
    (hserver : link.server = .sending blockNum offset data retries)
    (hclient : link.client.count = link.acked + 1) (hanswered : link.client.answered = true) :
    LinkInv session (link.deliverServer session (ackPacket blockNum)) := by
  have hstage := hinv.stage
  simp only [hserver, Stage] at hstage
  have hstored := hstage.stored_eq
  rw [hclient] at hstored
  unfold Link.deliverServer
  by_cases hshort : data.length < session.blockSize
  · simp only [hserver, Session.receive, ackedBlocks, isAckOf_ackPacket, BEq.rfl, ↓reduceIte,
      hshort]
    refine hinv.update (by simp) le_rfl id (by omega) (by omega) (by simp [Link.send])
      ⟨hanswered, ?_, ?_⟩
    · exact hstage.finished_iff.mpr ⟨hclient, hshort⟩
    · rw [hstored]
      rw [hstage.data_eq] at hshort
      exact Session.take_eq_content_of_short hshort
  · have hfull : data.length = session.blockSize := by
      have hle := session.length_block_le link.acked
      rw [← hstage.data_eq] at hle
      omega
    have hoffset : offset = (link.acked + 1) * session.blockSize := by
      rw [hstage.offset_eq, hfull, Nat.succ_mul]
    have hnext : blockNum + 1 = .ofNat (link.acked + 1 + 1) := by
      rw [hstage.blockNum_eq, UInt16.ofNat_add (link.acked + 1) 1]
      rfl
    have hfinished : link.client.finished = false := by
      rw [Bool.eq_false_iff]
      exact fun hfin => hshort (hstage.finished_iff.mp hfin).2
    simp only [hserver, Session.receive, ackedBlocks, isAckOf_ackPacket, BEq.rfl, ↓reduceIte,
      hshort]
    exact hinv.readBlock (by omega) hclient hnext hoffset hstage.answered hstage.agreed hstored
      hfinished

theorem LinkInv.deliverServer {session : Session} {link : Link} (hinv : LinkInv session link)
    {count sentAt : Nat} (hsent : sentAt ≤ count) (hcount : count ≤ link.client.count)
    (hanswered : link.client.answered = true) (htimely : link.acked < sentAt + 65535) :
    LinkInv session (link.deliverServer session (ackPacket (.ofNat count))) := by
  have hstage := hinv.stage
  have hbounds := hinv.bounds
  cases hserver : link.server with
  | complete =>
      simpa [Link.deliverServer, Session.receive, ackedBlocks, hserver] using hinv.ignore
  | aborted =>
      simpa [Link.deliverServer, Session.receive, ackedBlocks, hserver] using hinv.ignore
  | awaitingAck0 =>
      simp only [hserver, Stage] at hstage
      unfold Link.deliverServer
      by_cases hack : UInt16.ofNat count = 0
      · simp only [hserver, Session.receive, ackedBlocks, isAckOf_ackPacket, hack, BEq.rfl,
          ↓reduceIte, Nat.add_zero]
        exact hinv.readBlock le_rfl (by rw [hstage.count_eq, hstage.acked_eq])
          (by rw [hstage.acked_eq]; rfl) (by rw [hstage.acked_eq, Nat.zero_mul])
          (fun _ => hanswered) (hstage.agreed hanswered)
          (by rw [hstage.stored_eq, hstage.acked_eq, Nat.zero_mul, List.take_zero])
          hstage.finished_eq
      · simpa [Session.receive, ackedBlocks, hack, hserver] using hinv.ignore
  | sending blockNum offset data retries =>
      simp only [hserver, Stage] at hstage
      by_cases hack : UInt16.ofNat count = blockNum
      · have hcurrent : count = link.acked + 1 :=
          ack_current hsent hcount hbounds.2 htimely (hack.trans hstage.blockNum_eq)
        rw [hack]
        exact hinv.acknowledged hserver (by omega) hanswered
      · simpa [Link.deliverServer, Session.receive, ackedBlocks, hack, hserver] using hinv.ignore

theorem LinkInv.deliverOack {session : Session} {link : Link} (hinv : LinkInv session link)
    (hannounces : session.Announces) {packet : Packet} (hoack : session.oack = some packet)
    (hserver : link.server ≠ .aborted) :
    LinkInv session (link.deliverClient packet) := by
  obtain ⟨options, rfl, hsize⟩ := hannounces.oack packet hoack
  have hstage := hinv.stage
  simp only [Link.deliverClient, receive_oack]
  by_cases hanswered : link.client.answered = true
  · simp only [hanswered, ↓reduceIte]
    exact hinv.timeoutClient
  · simp only [hanswered, Bool.false_eq_true, ↓reduceIte]
    have hoffered : session.oack.isSome = true := by simp [hoack]
    cases hcase : link.server with
    | aborted => exact absurd hcase hserver
    | complete =>
        simp only [hcase, Stage] at hstage
        exact absurd hstage.1 hanswered
    | sending blockNum offset data retries =>
        simp only [hcase, Stage] at hstage
        exact absurd (hstage.answered hoffered) hanswered
    | awaitingAck0 =>
        simp only [hcase, Stage] at hstage
        refine hinv.update (fun hne => absurd hcase hne) le_rfl (fun _ => rfl) le_rfl
          hinv.bounds ?_ ?_
        · intro datagram hmem
          obtain ⟨sent, hsent, rfl⟩ := mem_send hmem
          obtain rfl := List.mem_singleton.mp hsent
          rw [hstage.acked_eq]
          exact .ack 0 0 le_rfl (Nat.zero_le _) rfl
        · exact { hstage with agreed := fun _ => hsize }

/-- A block that the client takes is the one the server is sending. -/
theorem data_current {index acked count : Nat} (hindex : index ≤ acked)
    (hbounds : acked ≤ count ∧ count ≤ acked + 1) (htimely : acked < index + 65535)
    (heq : UInt16.ofNat (index + 1) = .ofNat (count + 1)) : index = acked ∧ count = acked := by
  have hsame : index + 1 = count + 1 :=
    ofNat_inj_of_window (by omega) (by omega) heq
  omega

theorem LinkInv.deliverData {session : Session} {link : Link} (hinv : LinkInv session link)
    {index : Nat} (hindex : index ≤ link.acked) (hstarted : link.server ≠ .awaitingAck0)
    (htimely : link.acked < index + 65535) (hserver : link.server ≠ .aborted) :
    LinkInv session (link.deliverClient
      (buildDataPacket (.ofNat (index + 1)) (session.block index))) := by
  have hstage := hinv.stage
  simp only [Link.deliverClient, receive_data]
  by_cases htake : link.client.finished = false ∧
      UInt16.ofNat (index + 1) = .ofNat (link.client.count + 1)
  · simp only [htake, and_self, ↓reduceIte]
    obtain ⟨rfl, hcount⟩ := data_current hindex hinv.bounds htimely htake.2
    cases hcase : link.server with
    | awaitingAck0 => exact absurd hcase hstarted
    | aborted => exact absurd hcase hserver
    | complete =>
        simp only [hcase, Stage] at hstage
        simp [hstage.2.1] at htake
    | sending blockNum offset data retries =>
        simp only [hcase, Stage] at hstage
        refine hinv.update (by simp) (by simp [Client.store]) (fun _ => rfl) le_rfl
          (by simp only [Client.store]; omega) ?_ ?_
        · intro datagram hmem
          obtain ⟨sent, hsent, rfl⟩ := mem_send hmem
          obtain rfl := List.mem_singleton.mp hsent
          exact .ack (link.client.count + 1) link.acked (by omega) le_rfl rfl
        · exact {
            blockNum_eq := hstage.blockNum_eq
            data_eq := hstage.data_eq
            offset_eq := hstage.offset_eq
            answered := fun _ => rfl
            agreed := hstage.agreed
            stored_eq := by
              simp only [Client.store]
              rw [hstage.stored_eq, hcount, session.take_append_block]
            finished_iff := by
              simp only [Client.store, hcount, true_and, decide_eq_true_eq]
              rw [hstage.agreed, hstage.data_eq] }
  · simp only [htake, ↓reduceIte]
    exact hinv.timeoutClient

/-- An aborted session stays aborted. -/
theorem aborted_step {session : Session} {link : Link} (habort : link.server = .aborted)
    (event : NetEvent) : (link.step session event).server = .aborted := by
  cases event with
  | deliver index =>
      simp only [Link.step]
      split
      · exact habort
      · split <;> simp [Link.deliverServer, Link.deliverClient, Session.receive, habort]
  | lose index => exact habort
  | duplicate index => exact habort
  | serverTimeout => simp [Link.step, Link.timeoutServer, Session.timeout, habort]
  | serverFault => simp [Link.step, Link.faultServer, habort]
  | clientTimeout => exact habort

/-- A datagram in flight arrives. -/
theorem LinkInv.deliver {session : Session} {link : Link} (hinv : LinkInv session link)
    (hannounces : session.Announces) (habort : link.server ≠ .aborted) {index : Nat}
    (htimely : link.Timely (.deliver index)) :
    LinkInv session (link.step session (.deliver index)) := by
  simp only [Link.step]
  cases hget : link.inFlight[index]? with
  | none => exact hinv
  | some datagram =>
      have hmem := List.mem_of_getElem? hget
      have hwindow := htimely datagram hmem
      have hrest : LinkInv session { link with inFlight := link.inFlight.eraseIdx index } :=
        hinv.reflight fun datagram hmem => List.mem_of_mem_eraseIdx hmem
      cases hinv.flight datagram hmem with
      | oack packet sentAt hoack => exact hrest.deliverOack hannounces hoack habort
      | data index hindex hstarted => exact hrest.deliverData hindex hstarted hwindow habort
      | ack count sentAt hsent hcount hanswered =>
          exact hrest.deliverServer hsent hcount hanswered hwindow

/-- One event keeps the invariant unless the session is given up. -/
theorem linkInv_step {session : Session} (hannounces : session.Announces) (link : Link)
    (event : NetEvent) (hinv : link.server = .aborted ∨ LinkInv session link)
    (htimely : link.Timely event) :
    (link.step session event).server = .aborted ∨ LinkInv session (link.step session event) := by
  by_cases habort : link.server = .aborted
  · exact Or.inl (aborted_step habort event)
  · have hinv : LinkInv session link := hinv.resolve_left habort
    cases event with
    | lose index =>
        exact Or.inr (hinv.reflight fun datagram hmem => List.mem_of_mem_eraseIdx hmem)
    | duplicate index =>
        refine Or.inr (hinv.reflight fun datagram hmem => ?_)
        rcases List.mem_append.mp hmem with hold | hnew
        · exact hold
        · exact List.mem_of_getElem? (Option.mem_toList.mp hnew)
    | serverTimeout => exact hinv.timeoutServer
    | clientTimeout => exact Or.inr hinv.timeoutClient
    | serverFault =>
        simp only [Link.step, Link.faultServer]
        split
        · exact Or.inr hinv
        · exact Or.inl rfl
    | deliver index => exact Or.inr (hinv.deliver hannounces habort htimely)

theorem linkInv_initial {session : Session} (hannounces : session.Announces) :
    LinkInv session (Link.initial session) := by
  cases hoack : session.oack with
  | some oack =>
      refine ⟨⟨le_rfl, Nat.zero_le _⟩, ?_, ?_⟩
      · intro datagram hmem
        simp only [Link.initial, Session.start, hoack] at hmem
        obtain ⟨packet, hpacket, rfl⟩ := mem_send hmem
        obtain rfl := List.mem_singleton.mp hpacket
        exact .oack _ 0 hoack
      · simp only [Link.initial, Session.start, hoack, Stage]
        exact ⟨by simp [hoack], rfl, rfl, rfl, rfl, fun hans => absurd hans (by decide)⟩
  | none =>
      -- the first block is read at once, from a link on which nothing was sent
      have hempty : LinkInv session ⟨.aborted, .initial, [], 0⟩ :=
        ⟨⟨le_rfl, Nat.zero_le _⟩, by simp, trivial⟩
      simp only [Link.initial, Session.start, hoack]
      exact hempty.readBlock le_rfl rfl rfl (Nat.zero_mul _).symm (by simp [hoack])
        (hannounces.silent hoack).symm (by simp [Client.initial]) rfl

section Negotiation

theorem isAscii_decimal (n : Nat) : IsAscii (decimal n) := by
  intro c hc
  have hrange := toNat_of_isDigit (isDigit_of_mem_decimal hc)
  refine ⟨?_, by omega⟩
  rintro rfl
  simp at hrange

theorem isAscii_oackOptions {rrq : Rrq} {fileLen : Nat} {pair : Str × Str}
    (hpair : pair ∈ oackOptions rrq fileLen) : IsAscii pair.1 ∧ IsAscii pair.2 := by
  have hkeys : IsAscii blksizeKey ∧ IsAscii tsizeKey :=
    ⟨isAscii_of_all (by decide), isAscii_of_all (by decide)⟩
  unfold oackOptions at hpair
  rcases List.mem_append.mp hpair with hpair | hpair <;>
  · split at hpair
    · obtain rfl := List.mem_singleton.mp hpair
      exact ⟨by simp [hkeys], isAscii_decimal _⟩
    · simp at hpair

theorem nodup_keys_oackOptions (rrq : Rrq) (fileLen : Nat) :
    ((oackOptions rrq fileLen).map Prod.fst).Nodup := by
  have hne : blksizeKey ≠ tsizeKey := by decide
  unfold oackOptions
  split <;> split <;> simp [hne]

theorem buildOackPacket_eq (options : List (Str × Str)) :
    buildOackPacket options = toBeBytes opOack ++ encodeOptions options := by
  simp [buildOackPacket, encodeOptions, encodeField]

theorem optionPairs_oack {options : List (Str × Str)}
    (hascii : ∀ pair ∈ options, IsAscii pair.1 ∧ IsAscii pair.2) :
    optionPairs id (nulFields ((buildOackPacket options).drop 2)) = options := by
  have hdrop : (buildOackPacket options).drop 2 = encodeOptions options := by
    rw [buildOackPacket_eq]
    rfl
  have hnul : ∀ pair ∈ options, NulFree pair.1 ∧ NulFree pair.2 := fun pair hpair =>
    ⟨(hascii pair hpair).1.zero_not_mem, (hascii pair hpair).2.zero_not_mem⟩
  rw [hdrop, optionPairs_nulFields id hnul]
  exact List.map_id' options

/-- The options a client reads off the acknowledgement, in whatever order the
map was iterated. -/
theorem announcedBlockSize_buildOackPacket (platform : Platform) (rrq : Rrq) (fileLen : Nat) :
    announcedBlockSize (buildOackPacket (platform.hashOrder (oackOptions rrq fileLen))) =
      negotiatedBlockSize rrq := by
  have hperm := platform.hashOrder_perm (oackOptions rrq fileLen)
  have hread := optionPairs_oack fun pair hpair =>
    isAscii_oackOptions (hperm.mem_iff.mp hpair)
  rw [announcedBlockSize, hread]
  cases hoption : optionGet rrq.options blksizeKey with
  | some value =>
      have hmem : (blksizeKey, decimal (negotiatedBlockSize rrq)) ∈
          platform.hashOrder (oackOptions rrq fileLen) := by
        rw [hperm.mem_iff]
        simp [oackOptions, hoption]
      have hnodup : ((platform.hashOrder (oackOptions rrq fileLen)).map Prod.fst).Nodup :=
        (hperm.map Prod.fst).nodup_iff.mpr (nodup_keys_oackOptions rrq fileLen)
      have hlt : negotiatedBlockSize rrq < usizeBound :=
        lt_of_le_of_lt (min_le_right _ _) (by decide)
      rw [optionGet_eq_some hnodup hmem, Option.bind_some, parseUnsigned_decimal hlt,
        Option.getD_some]
  | none =>
      have hnone : optionGet (platform.hashOrder (oackOptions rrq fileLen)) blksizeKey =
          none := by
        rw [optionGet, List.lookup_eq_none_iff]
        intro pair hpair
        have hpair := hperm.mem_iff.mp (List.mem_reverse.mp hpair)
        have hne : blksizeKey ≠ tsizeKey := by decide
        simp only [oackOptions, hoption, Option.isSome_none, Bool.false_eq_true, ↓reduceIte,
          List.nil_append] at hpair
        split at hpair
        · obtain rfl := List.mem_singleton.mp hpair
          simpa using hne
        · simp at hpair
      rw [hnone]
      simp [negotiatedBlockSize, hoption, defaultBlockSize, mtuSafe]

theorem openSession_announces (platform : Platform) (rrq : Rrq) (content : List UInt8) :
    (openSession platform rrq content).Announces where
  silent := by
    intro hnone
    have hoptions : rrq.options = [] := by
      by_contra hne
      simp [openSession, hne] at hnone
    simp [openSession, negotiatedBlockSize, hoptions, optionGet, defaultBlockSize, mtuSafe]
  oack := by
    intro packet hpacket
    simp only [openSession, Option.ite_none_left_eq_some, Option.some.injEq] at hpacket
    exact ⟨_, hpacket.2.symm, by
      rw [← hpacket.2]
      exact announcedBlockSize_buildOackPacket platform rrq content.length⟩

end Negotiation

/-- Whenever the session ends with its last block acknowledged, the client holds
the file. -/
theorem run_complete_delivers (platform : Platform) (rrq : Rrq) (content : List UInt8)
    (events : List NetEvent)
    (htimely : StepRun.Meets (Link.step (openSession platform rrq content)) Link.Timely
      (Link.initial (openSession platform rrq content)) events)
    (hcomplete : (Link.run (openSession platform rrq content) events).server = .complete) :
    (Link.run (openSession platform rrq content) events).client.stored = content := by
  have hannounces := openSession_announces platform rrq content
  have hrun : (Link.run (openSession platform rrq content) events).server = .aborted ∨
      LinkInv (openSession platform rrq content)
        (Link.run (openSession platform rrq content) events) :=
    htimely.foldl_inv (linkInv_step hannounces) (Or.inr (linkInv_initial hannounces))
  rcases hrun with habort | hinv
  · rw [habort] at hcomplete
    cases hcomplete
  · have hstage := hinv.stage
    rw [hcomplete] at hstage
    exact hstage.2.2

namespace DeliveryWitness

def smallBlocks : Rrq :=
  ⟨"boot.img".toList, "octet".toList, [(blksizeKey, "2".toList)]⟩

/-- A duplicated acknowledgement, a lost block and a retransmission, for a file
of two full blocks. -/
def schedule : List NetEvent :=
  [.deliver 0, .duplicate 0, .deliver 0, .deliver 1, .deliver 1, .lose 1, .serverTimeout,
    .deliver 1, .deliver 1, .deliver 1, .deliver 1]

theorem lossy_run_delivers :
    (Link.run (openSession TftpWitness.plain smallBlocks [1, 2, 3, 4]) schedule).server =
        .complete ∧
      (Link.run (openSession TftpWitness.plain smallBlocks [1, 2, 3, 4])
        schedule).client.stored = [1, 2, 3, 4] := by
  have hcomplete : (Link.run (openSession TftpWitness.plain smallBlocks [1, 2, 3, 4])
      schedule).server = .complete := by decide
  exact ⟨hcomplete, run_complete_delivers TftpWitness.plain smallBlocks [1, 2, 3, 4] schedule
    (by decide) hcomplete⟩

end DeliveryWitness

end Tftp

end PiCluster
