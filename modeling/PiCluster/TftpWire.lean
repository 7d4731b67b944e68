/-
What a TFTP session puts on the wire.  The blocks of the file go out in order, each at
least once and at most five times, a complete transfer has sent all of them, and no
datagram is longer than a block of the largest size the server agrees to.
-/
import PiCluster.TftpSocket

namespace PiCluster

namespace Tftp

open Text Bytes

namespace Session

/-- Blocks in order from the given one on, each as often as the list says. -/
def resends (session : Session) : Nat → List Nat → List Packet
  | _, [] => []
  | index, count :: rest =>
      List.replicate count (session.dataPacket index) ++ session.resends (index + 1) rest

end Session

section Order

variable {Peer : Type} [DecidableEq Peer]

theorem sendBlock_packets (fails : List Packet → Bool) (peer : Peer) (blockNum : UInt16)
    (packet : Packet) (retries : Nat) (packets : List Packet)
    (arrivals : List (Arrival Peer)) :
    ∃ count ≤ retries,
      (sendBlock fails peer blockNum packet retries packets arrivals).packets =
        packets ++ List.replicate count packet ∧
      ((sendBlock fails peer blockNum packet retries packets arrivals).outcome = .acked →
        1 ≤ count) := by
  induction retries generalizing packets arrivals with
  | zero => exact ⟨0, le_rfl, (List.append_nil _).symm, fun hacked => by cases hacked⟩
  | succ retries ih =>
      cases hfails : fails packets with
      | true =>
          rw [sendBlock_of_fails hfails]
          exact ⟨0, Nat.zero_le _, (List.append_nil _).symm, fun hacked => by cases hacked⟩
      | false =>
          rw [sendBlock_of_not_fails hfails]
          split
          · exact ⟨1, Nat.succ_le_succ (Nat.zero_le _), rfl, fun _ => le_rfl⟩
          · obtain ⟨count, hcount, hpackets, -⟩ :=
              ih (packets ++ [packet]) (waitForAck peer blockNum 0 arrivals).2
            refine ⟨count + 1, Nat.succ_le_succ hcount, ?_, fun _ => Nat.succ_pos count⟩
            rw [hpackets, List.append_assoc, List.replicate_succ]
            rfl

namespace Session

variable (session : Session) {fails : List Packet → Bool} (peer : Peer)

/-- The block before a full one is not the last. -/
theorem next_offset {index : Nat} (hfull : ¬ (session.block index).length < session.blockSize)
    (hoffset : index * session.blockSize ≤ session.content.length) :
    index * session.blockSize + (session.block index).length = (index + 1) * session.blockSize ∧
      (index + 1) * session.blockSize ≤ session.content.length := by
  have hle := session.length_block_le index
  have hlength : (session.block index).length =
      min session.blockSize (session.content.length - index * session.blockSize) := by
    rw [block, List.length_take, List.length_drop]
  rw [Nat.succ_mul]
  omega

theorem blocks_of_short {index : Nat} (hshort : (session.block index).length < session.blockSize)
    (hoffset : index * session.blockSize ≤ session.content.length) :
    session.content.length / session.blockSize = index := by
  have hlength : (session.block index).length =
      min session.blockSize (session.content.length - index * session.blockSize) := by
    rw [block, List.length_take, List.length_drop]
  apply Nat.div_eq_of_lt_le hoffset
  rw [Nat.succ_mul]
  omega

/-- A turn of the loop over the blocks, by what became of its block. -/
theorem sendFile_block {fuel index : Nat} {packets : List Packet}
    {arrivals : List (Arrival Peer)} {sent : Sent Peer}
    (hsent : sendBlock fails peer (.ofNat (index + 1)) (session.dataPacket index) maxRetries
      packets arrivals = sent) :
    session.sendFile fails peer (fuel + 1) (.ofNat (index + 1)) (index * session.blockSize)
        packets arrivals =
      match sent.outcome with
      | .acked =>
          if (session.block index).length < session.blockSize then
            some (.complete, sent.packets)
          else session.sendFile fails peer fuel (.ofNat (index + 1) + 1)
            (index * session.blockSize + (session.block index).length) sent.packets
            sent.arrivals
      | _ => some (.aborted, sent.packets) := by
  subst hsent
  rfl

theorem resends_concat (index count : Nat) (packets : List Packet) :
    ∃ counts, (∀ other ∈ counts, other = count ∧ 1 ≤ count) ∧
      packets ++ List.replicate count (session.dataPacket index) =
        packets ++ session.resends index counts := by
  cases count with
  | zero => exact ⟨[], List.forall_mem_nil _, rfl⟩
  | succ count =>
      refine ⟨[count + 1], List.forall_mem_singleton.mpr ⟨rfl, Nat.succ_pos count⟩, ?_⟩
      rw [resends, resends, List.append_nil]

/-- The loop over the blocks, from a block on that the file reaches. -/
theorem sendFile_packets {fuel index : Nat}
    (hoffset : index * session.blockSize ≤ session.content.length) {packets : List Packet}
    {arrivals : List (Arrival Peer)} {server : Server} {out : List Packet}
    (hsends : session.sendFile fails peer fuel (.ofNat (index + 1))
      (index * session.blockSize) packets arrivals = some (server, out)) :
    ∃ counts, (∀ count ∈ counts, 1 ≤ count ∧ count ≤ maxRetries) ∧
      out = packets ++ session.resends index counts ∧
      (server = .complete →
        index + counts.length = session.content.length / session.blockSize + 1) := by
  induction fuel generalizing index packets arrivals with
  | zero => cases hsends
  | succ fuel ih =>
      obtain ⟨count, hcount, hpackets, hacked⟩ := sendBlock_packets fails peer
        (.ofNat (index + 1)) (session.dataPacket index) maxRetries packets arrivals
      generalize hsent : sendBlock fails peer (.ofNat (index + 1)) (session.dataPacket index)
        maxRetries packets arrivals = sent at hpackets hacked
      rw [session.sendFile_block peer hsent] at hsends
      cases houtcome : sent.outcome with
      | timedOut | failed =>
          rw [houtcome] at hsends
          cases hsends
          obtain ⟨counts, hcounts, hout⟩ := session.resends_concat index count packets
          refine ⟨counts, ?_, hpackets.trans hout, fun hcomplete => by cases hcomplete⟩
          intro other hother
          obtain ⟨rfl, hpos⟩ := hcounts other hother
          exact ⟨hpos, hcount⟩
      | acked =>
          have hpos := hacked houtcome
          rw [houtcome] at hsends
          dsimp only at hsends
          split at hsends
          · rename_i hshort
            cases hsends
            refine ⟨[count], List.forall_mem_singleton.mpr ⟨hpos, hcount⟩, ?_, ?_⟩
            · rw [hpackets, resends, resends, List.append_nil]
            · intro _
              rw [session.blocks_of_short hshort hoffset]
              rfl
          · rename_i hfull
            obtain ⟨hnext, hinside⟩ := session.next_offset hfull hoffset
            rw [hnext] at hsends
            have hnumber : UInt16.ofNat (index + 1) + 1 = .ofNat (index + 1 + 1) :=
              (UInt16.ofNat_add (index + 1) 1).symm
            rw [hnumber] at hsends
            obtain ⟨counts, hcounts, hout, hcomplete⟩ := ih hinside hsends
            refine ⟨count :: counts, List.forall_mem_cons.mpr ⟨⟨hpos, hcount⟩, hcounts⟩, ?_, ?_⟩
            · rw [hout, hpackets, resends, List.append_assoc]
            · intro hended
              rw [List.length_cons, ← hcomplete hended]
              omega

/-- The loop over the blocks as it is entered. -/
theorem sendFile_packets_start {fuel : Nat} {before : List Packet}
    {arrivals : List (Arrival Peer)} {server : Server} {out : List Packet}
    (hsends : session.sendFile fails peer fuel 1 0 before arrivals = some (server, out)) :
    ∃ counts, (∀ count ∈ counts, 1 ≤ count ∧ count ≤ maxRetries) ∧
      out = before ++ session.resends 0 counts ∧
      (server = .complete →
        counts.length = session.content.length / session.blockSize + 1) := by
  have hzero : 0 * session.blockSize = 0 := Nat.zero_mul _
  have hsends : session.sendFile fails peer fuel (.ofNat (0 + 1)) (0 * session.blockSize)
      before arrivals = some (server, out) := by
    rw [hzero]
    exact hsends
  obtain ⟨counts, hcounts, hout, hcomplete⟩ :=
    session.sendFile_packets peer (hzero.trans_le (Nat.zero_le _)) hsends
  refine ⟨counts, hcounts, hout, ?_⟩
  intro hended
  rw [← hcomplete hended, Nat.zero_add]

/-- The whole transfer. -/
theorem transfer_packets {arrivals : List (Arrival Peer)} {server : Server}
    {packets : List Packet}
    (htransfer : session.transfer fails peer arrivals = some (server, packets)) :
    ∃ counts, (∀ count ∈ counts, 1 ≤ count ∧ count ≤ maxRetries) ∧
      packets = (if fails [] then [] else session.oack.toList) ++ session.resends 0 counts ∧
      (server = .complete →
        counts.length = session.content.length / session.blockSize + 1) := by
  unfold transfer at htransfer
  cases hoack : session.oack with
  | none =>
      rw [hoack] at htransfer
      simpa using session.sendFile_packets_start peer htransfer
  | some oack =>
      rw [hoack] at htransfer
      dsimp only at htransfer
      split at htransfer
      · rename_i hfails
        cases htransfer
        refine ⟨[], List.forall_mem_nil _, ?_, fun hcomplete => by cases hcomplete⟩
        rw [if_pos hfails]
        rfl
      · rename_i hfails
        rw [if_neg hfails]
        split at htransfer
        · exact session.sendFile_packets_start peer htransfer
        · cases htransfer
          exact ⟨[], List.forall_mem_nil _, rfl, fun hcomplete => by cases hcomplete⟩

end Session

end Order

section Size

theorem length_asBytes {s : Str} (hascii : IsAscii s) : (asBytes s).length = s.length := by
  induction s with
  | nil => rfl
  | cons c rest ih =>
      obtain ⟨hc, hrest⟩ := List.forall_mem_cons.mp hascii
      have hone : (String.utf8EncodeChar c).length = 1 := by
        rw [String.length_utf8EncodeChar, Char.utf8Size_eq_one_iff]
        exact hc.2
      rw [asBytes, List.flatMap_cons, List.length_append, hone, List.length_cons, Nat.add_comm]
      exact congrArg (· + 1) (ih hrest)

theorem length_option {key : Str} (hkey : IsAscii key) (n : Nat) :
    (asBytes key ++ 0 :: (asBytes (decimal n) ++ [0])).length =
      key.length + (decimal n).length + 2 := by
  rw [List.length_append, List.length_cons, List.length_append, length_asBytes hkey,
    length_asBytes (isAscii_decimal n), List.length_singleton]
  omega

theorem length_buildOackPacket_le (platform : Platform) (rrq : Rrq) {fileLen : Nat}
    (hlength : fileLen < usizeBound) :
    (buildOackPacket (platform.hashOrder (oackOptions rrq fileLen))).length ≤ mtuSafe := by
  have hkeys : IsAscii blksizeKey ∧ IsAscii tsizeKey :=
    ⟨isAscii_of_all (by decide), isAscii_of_all (by decide)⟩
  have hblksize : (decimal (negotiatedBlockSize rrq)).length ≤ 4 :=
    (Nat.length_toDigits_le_iff (by decide) (by decide)).mpr
      (lt_of_le_of_lt (min_le_right _ _) (by decide))
  have htsize : (decimal fileLen).length ≤ 20 :=
    (Nat.length_toDigits_le_iff (by decide) (by decide)).mpr (lt_trans hlength (by decide))
  have hperm := (platform.hashOrder_perm (oackOptions rrq fileLen)).flatMap_right
    fun pair => asBytes pair.1 ++ 0 :: (asBytes pair.2 ++ [0])
  have hkeyLengths : blksizeKey.length = 7 ∧ tsizeKey.length = 5 := by decide
  have hop : (toBeBytes opOack).length = 2 := rfl
  rw [buildOackPacket, List.length_append, hperm.length_eq, hop, oackOptions,
    List.flatMap_append, List.length_append]
  have hfirst : ((if (optionGet rrq.options blksizeKey).isSome then
      [(blksizeKey, decimal (negotiatedBlockSize rrq))] else []).flatMap
        fun pair => asBytes pair.1 ++ 0 :: (asBytes pair.2 ++ [0])).length ≤ 13 := by
    split
    · rw [List.flatMap_singleton, length_option hkeys.1, hkeyLengths.1]
      omega
    · exact Nat.zero_le _
  have hsecond : ((if (optionGet rrq.options tsizeKey).isSome then
      [(tsizeKey, decimal fileLen)] else []).flatMap
        fun pair => asBytes pair.1 ++ 0 :: (asBytes pair.2 ++ [0])).length ≤ 27 := by
    split
    · rw [List.flatMap_singleton, length_option hkeys.2, hkeyLengths.2]
      omega
    · exact Nat.zero_le _
  rw [mtuSafe]
  omega

theorem exists_of_mem_resends {session : Session} {index : Nat} {counts : List Nat}
    {packet : Packet} (hmem : packet ∈ session.resends index counts) :
    ∃ block, packet = session.dataPacket block := by
  induction counts generalizing index with
  | nil => exact absurd hmem List.not_mem_nil
  | cons count rest ih =>
      rcases List.mem_append.mp hmem with hblock | hlater
      · exact ⟨index, List.eq_of_mem_replicate hblock⟩
      · exact ih hlater

theorem length_dataPacket_le (session : Session) (index : Nat) :
    (session.dataPacket index).length ≤ session.blockSize + 4 := by
  have hblock := session.length_block_le index
  rw [Session.dataPacket, buildDataPacket, List.length_append, List.length_append]
  change 2 + 2 + _ ≤ _
  omega

end Size

/-- Whatever a client asks for, however its datagrams arrive and whichever sends fail,
the session sends the acknowledgement of the options and then the blocks of the file in
order, each one to five times, all of them if it completes, in datagrams of at most 1432
bytes. -/
theorem transfer_wire {Peer : Type} [DecidableEq Peer] {platform : Platform} {rootDir : Str}
    {files : Str → FileState} {request : Packet} {session : Session}
    (hopened : handleInitialPacket platform rootDir files request = .opened session)
    (hlength : session.content.length < usizeBound) {fails : List Packet → Bool} {peer : Peer}
    {arrivals : List (Arrival Peer)} {server : Server} {packets : List Packet}
    (htransfer : session.transfer fails peer arrivals = some (server, packets)) :
    (∃ counts, (∀ count ∈ counts, 1 ≤ count ∧ count ≤ maxRetries) ∧
      packets = (if fails [] then [] else session.oack.toList) ++ session.resends 0 counts ∧
      (server = .complete →
        counts.length = session.content.length / session.blockSize + 1)) ∧
    ∀ packet ∈ packets, packet.length ≤ mtuSafe + 4 := by
  obtain ⟨counts, hcounts, hpackets, hcomplete⟩ := session.transfer_packets peer htransfer
  refine ⟨⟨counts, hcounts, hpackets, hcomplete⟩, ?_⟩
  obtain ⟨rrq, content, -, -, rfl⟩ :=
    (handleInitialPacket_eq_opened_iff platform rootDir files request session).mp hopened
  have hblockSize : (openSession platform rrq content).blockSize ≤ mtuSafe := min_le_right _ _
  intro packet hpacket
  rw [hpackets] at hpacket
  rcases List.mem_append.mp hpacket with hoack | hdata
  · have hoack : packet ∈ (openSession platform rrq content).oack.toList := by
      split at hoack
      · cases hoack
      · exact hoack
    have hsent := Option.mem_toList.mp hoack
    simp only [openSession, Option.ite_none_left_eq_some, Option.some.injEq] at hsent
    rw [← hsent.2]
    exact Nat.le_add_right_of_le (length_buildOackPacket_le platform rrq hlength)
  · obtain ⟨block, rfl⟩ := exists_of_mem_resends hdata
    exact (length_dataPacket_le _ block).trans (Nat.add_le_add_right hblockSize 4)

namespace WireWitness

/-- A client that asks for blocks far beyond what fits. -/
def rrq : Rrq :=
  ⟨"boot.img".toList, "octet".toList,
    [(blksizeKey, "65464".toList), (tsizeKey, "0".toList)]⟩

def request : Packet := toBeBytes opRrq ++ encodeRrq rrq.filename rrq.mode rrq.options

def session : Session := openSession TftpWitness.plain rrq [1, 2, 3]

/-- The acknowledgement of the block comes after a retry. -/
def arrivals : List (Arrival Bool) :=
  [⟨10, some (true, ackPacket 0)⟩, ⟨3500, some (true, ackPacket 1)⟩]

theorem large_blocks_fit :
    ∃ packets, session.transfer (fun _ => false) true arrivals = some (.complete, packets) ∧
      packets.length = 3 ∧ ∀ packet ∈ packets, packet.length ≤ mtuSafe + 4 := by
  have hread : readRequest id request = .ok (some rrq) := by decide
  have hopened := (handleInitialPacket_eq_opened_iff TftpWitness.plain TftpWitness.tftpRoot
    TerminationWitness.bootImage request session).mpr ⟨rrq, [1, 2, 3], hread, rfl, rfl⟩
  have htransfer : session.transfer (fun _ => false) true arrivals =
      some (.complete, session.oack.toList ++ session.resends 0 [2]) := by decide
  exact ⟨_, htransfer, by decide, (transfer_wire hopened (by decide) htransfer).2⟩

end WireWitness

end Tftp

end PiCluster
