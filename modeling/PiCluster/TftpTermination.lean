/-
Whether a TFTP session ends.  The unread part of the file and the retries left
for the block in hand shrink with every wait, provided the block size the client
asked for is not zero.
-/
import Mathlib.Data.List.Dedup
import Mathlib.Data.List.Perm.Subperm
import Mathlib.Order.WellFounded
import PiCluster.TftpDelivery

namespace PiCluster

namespace Tftp

open Text Bytes

/-- How a call of `wait_for_ack` and what follows it up to the next call can go:
the acknowledgement came, it did not, or sending or reading failed. -/
inductive Wait where
  | acked
  | timedOut
  | failed
deriving DecidableEq, Repr

namespace Server

/-- The block number the server waits for. -/
def awaited : Server → UInt16
  | .sending blockNum _ _ _ => blockNum
  | _ => 0

def Ended (server : Server) : Prop := server = .complete ∨ server = .aborted

instance (server : Server) : Decidable server.Ended := inferInstanceAs (Decidable (_ ∨ _))

/-- The blocks an acknowledgement of the awaited number settles. -/
def settles : Server → Wait → Nat
  | .sending _ _ _ _, .acked => 1
  | _, _ => 0

end Server

namespace Session

def resume (session : Session) (server : Server) : Wait → Server × List Packet
  | .acked => session.receive server (ackPacket server.awaited)
  | .timedOut => timeout server
  | .failed => (if server = .complete then server else .aborted, [])

/-- The packet of block `index`, counted from zero. -/
def dataPacket (session : Session) (index : Nat) : Packet :=
  buildDataPacket (.ofNat (index + 1)) (session.block index)

end Session

/-- A session in progress: `acked` blocks were settled, and `sent` holds every
DATA packet so far with the index of its block. -/
structure Transfer where
  server : Server
  acked : Nat
  sent : List (Nat × Packet)
deriving DecidableEq, Repr

namespace Transfer

def tag (index : Nat) (packets : List Packet) : List (Nat × Packet) :=
  packets.map fun packet => (index, packet)

def initial (session : Session) : Transfer where
  server := session.start.1
  acked := 0
  sent := if session.oack = none then tag 0 session.start.2 else []

def step (session : Session) (transfer : Transfer) (wait : Wait) : Transfer :=
  let result := session.resume transfer.server wait
  let acked := transfer.acked + transfer.server.settles wait
  { server := result.1, acked := acked, sent := transfer.sent ++ tag acked result.2 }

def sendsOf (transfer : Transfer) (index : Nat) : Nat :=
  (transfer.sent.map Prod.fst).count index

/-- How many different blocks were sent. -/
def blocksSent (transfer : Transfer) : Nat := (transfer.sent.map Prod.fst).dedup.length

end Transfer

namespace Session

def after (session : Session) (waits : Nat → Wait) : Nat → Transfer
  | 0 => .initial session
  | n + 1 => (session.after waits n).step session (waits n)

/-- However the waits go, the session comes to an end, and up to there it sends
only blocks of the file, no more of them than the file has, each at most
`maxRetries` times. -/
def Ends (session : Session) : Prop :=
  ∀ waits, (∃ n, (session.after waits n).server.Ended) ∧
    ∀ n, (∀ entry ∈ (session.after waits n).sent, entry.2 = session.dataPacket entry.1) ∧
      (session.after waits n).blocksSent ≤ session.content.length / session.blockSize + 1 ∧
      ∀ index, (session.after waits n).sendsOf index ≤ maxRetries

end Session

namespace Transfer

/-- What holds of the packets sent, wherever the session stands. -/
structure Bounded (session : Session) (transfer : Transfer) : Prop where
  sends_le : ∀ index, transfer.sendsOf index ≤ maxRetries
  sent_block : ∀ entry ∈ transfer.sent,
    entry.1 * session.blockSize ≤ session.content.length ∧
      entry.2 = session.dataPacket entry.1

/-- The block in hand is block `acked` of the file, sent once more than it timed
out, and no later block was sent. -/
structure InHand (session : Session) (transfer : Transfer) (blockNum : UInt16) (offset : Nat)
    (data : List UInt8) (retries : Nat) : Prop where
  number : blockNum = .ofNat (transfer.acked + 1)
  data_eq : data = session.block transfer.acked
  offset_eq : offset = transfer.acked * session.blockSize + data.length
  inside : transfer.acked * session.blockSize ≤ session.content.length
  retries_lt : retries < maxRetries
  current : transfer.sendsOf transfer.acked = retries + 1
  later : ∀ index, transfer.acked < index → transfer.sendsOf index = 0

structure Inv (session : Session) (transfer : Transfer) : Prop where
  bounded : transfer.Bounded session
  waiting : transfer.server = .awaitingAck0 → transfer.acked = 0 ∧ transfer.sent = []
  inHand : ∀ blockNum offset data retries,
    transfer.server = .sending blockNum offset data retries →
      transfer.InHand session blockNum offset data retries

section Sending

variable {session : Session} {transfer : Transfer}

/-- The packets of a transfer after one more of block `index`. -/
theorem sendsOf_append (sent : List (Nat × Packet)) (server : Server) (acked index : Nat)
    (packet : Packet) (other : Nat) :
    (Transfer.mk server acked (sent ++ [(index, packet)])).sendsOf other =
      (sent.map Prod.fst).count other + if other = index then 1 else 0 := by
  rw [sendsOf, List.map_append, List.count_append]
  by_cases heq : other = index
  · simp [heq]
  · simp [heq, Ne.symm heq]

theorem Bounded.send (hbounded : transfer.Bounded session) (server : Server) {acked : Nat}
    (hinside : acked * session.blockSize ≤ session.content.length)
    (hsends : transfer.sendsOf acked < maxRetries) :
    (Transfer.mk server acked
      (transfer.sent ++ [(acked, session.dataPacket acked)])).Bounded session := by
  constructor
  · intro index
    rw [sendsOf_append]
    have hle := hbounded.sends_le index
    split
    next heq =>
      subst heq
      exact hsends
    next => exact hle
  · intro entry hentry
    rcases List.mem_append.mp hentry with hold | hnew
    · exact hbounded.sent_block entry hold
    · obtain rfl := List.mem_singleton.mp hnew
      exact ⟨hinside, rfl⟩

/-- Sending block `acked`, which was sent `retries` times before. -/
theorem Inv.sending (hbounded : transfer.Bounded session) {blockNum : UInt16}
    {offset acked retries : Nat} {data : List UInt8} (hnumber : blockNum = .ofNat (acked + 1))
    (hdata : data = session.block acked)
    (hoffset : offset = acked * session.blockSize + data.length)
    (hinside : acked * session.blockSize ≤ session.content.length)
    (hretries : retries < maxRetries) (hcurrent : transfer.sendsOf acked = retries)
    (hlater : ∀ index, acked < index → transfer.sendsOf index = 0) :
    (Transfer.mk (.sending blockNum offset data retries) acked
      (transfer.sent ++ [(acked, session.dataPacket acked)])).Inv session := by
  constructor
  case bounded =>
    apply hbounded.send _ hinside
    rw [hcurrent]
    exact hretries
  case waiting =>
    intro hserver
    cases hserver
  case inHand =>
    intro _ _ _ _ hserver
    cases hserver
    constructor
    case number => exact hnumber
    case data_eq => exact hdata
    case offset_eq => exact hoffset
    case inside => exact hinside
    case retries_lt => exact hretries
    case current =>
      rw [sendsOf_append, if_pos rfl]
      exact congrArg (· + 1) hcurrent
    case later =>
      intro index hindex
      rw [sendsOf_append, if_neg (Nat.ne_of_gt hindex)]
      exact hlater index hindex

/-- Reading the next block and sending it for the first time. -/
theorem Inv.readBlock (hbounded : transfer.Bounded session) (blockNum : UInt16)
    (offset acked : Nat) (hnumber : blockNum = .ofNat (acked + 1))
    (hoffset : offset = acked * session.blockSize)
    (hinside : acked * session.blockSize ≤ session.content.length)
    (hlater : ∀ index, acked ≤ index → transfer.sendsOf index = 0) :
    (Transfer.mk (session.readBlock blockNum offset).1 acked
      (transfer.sent ++ tag acked (session.readBlock blockNum offset).2)).Inv session := by
  subst hoffset
  have hpacket : tag acked (session.readBlock blockNum (acked * session.blockSize)).2 =
      [(acked, session.dataPacket acked)] := by
    rw [hnumber]
    rfl
  rw [hpacket]
  apply Inv.sending hbounded hnumber rfl rfl hinside (by decide) (hlater acked le_rfl)
  intro index hindex
  exact hlater index (Nat.le_of_lt hindex)

theorem Inv.ended (hbounded : transfer.Bounded session) (server : Server) (acked : Nat)
    (hended : server.Ended) :
    (Transfer.mk server acked (transfer.sent ++ tag acked [])).Inv session := by
  have hsent : transfer.sent ++ tag acked [] = transfer.sent := List.append_nil _
  rw [hsent]
  constructor
  · exact ⟨hbounded.sends_le, hbounded.sent_block⟩
  · rintro rfl
    simp [Server.Ended] at hended
  · rintro _ _ _ _ rfl
    simp [Server.Ended] at hended

end Sending

theorem bounded_empty (session : Session) (server : Server) (acked : Nat) :
    (Transfer.mk server acked []).Bounded session :=
  ⟨fun _ => Nat.zero_le _, List.forall_mem_nil _⟩

theorem inv_initial (session : Session) : (initial session).Inv session := by
  cases hoack : session.oack with
  | none =>
      have hread := Inv.readBlock (bounded_empty session .awaitingAck0 0) 1 0 0 rfl (by simp)
        (by simp) fun _ _ => rfl
      simpa [initial, Session.start, hoack] using hread
  | some oack =>
      constructor
      · simpa [initial, hoack] using bounded_empty session _ 0
      · intro _
        exact ⟨rfl, by simp [initial, hoack]⟩
      · intro _ _ _ _ hserver
        simp [initial, Session.start, hoack] at hserver

/-- A full block in hand leaves room for the next one to start within the file. -/
theorem InHand.next_inside {session : Session} {transfer : Transfer} {blockNum : UInt16}
    {offset : Nat} {data : List UInt8} {retries : Nat}
    (hhand : transfer.InHand session blockNum offset data retries)
    (hfull : ¬ data.length < session.blockSize) :
    data.length = session.blockSize ∧
      (transfer.acked + 1) * session.blockSize ≤ session.content.length := by
  have hlength : data.length =
      min session.blockSize (session.content.length - transfer.acked * session.blockSize) := by
    rw [hhand.data_eq, Session.block, List.length_take, List.length_drop]
  have hinside := hhand.inside
  rw [Nat.add_mul, Nat.one_mul]
  omega

theorem inv_step {session : Session} {transfer : Transfer} (hinv : transfer.Inv session)
    (wait : Wait) : (transfer.step session wait).Inv session := by
  obtain ⟨server, acked, sent⟩ := transfer
  cases server with
  | awaitingAck0 =>
      obtain ⟨rfl, rfl⟩ := hinv.waiting rfl
      cases wait with
      | acked =>
          have hread := Inv.readBlock hinv.bounded 1 0 0 rfl (by simp) (by simp)
            fun _ _ => rfl
          simpa [step, Session.resume, Session.receive, Server.awaited, Server.settles]
            using hread
      | timedOut => exact Inv.ended hinv.bounded .aborted 0 (Or.inr rfl)
      | failed => exact Inv.ended hinv.bounded .aborted 0 (Or.inr rfl)
  | sending blockNum offset data retries =>
      have hhand := hinv.inHand blockNum offset data retries rfl
      cases wait with
      | acked =>
          by_cases hlast : data.length < session.blockSize
          · have hend := Inv.ended hinv.bounded .complete (acked + 1) (Or.inl rfl)
            simpa [step, Session.resume, Session.receive, Server.awaited, Server.settles,
              hlast] using hend
          · obtain ⟨hlength, hnext⟩ := hhand.next_inside hlast
            have hread := Inv.readBlock hinv.bounded (blockNum + 1) offset (acked + 1)
              (by rw [hhand.number]; exact (UInt16.ofNat_add _ 1).symm)
              (by rw [hhand.offset_eq, hlength, Nat.add_mul, Nat.one_mul])
              hnext fun index hindex => hhand.later index hindex
            simpa [step, Session.resume, Session.receive, Server.awaited, Server.settles,
              hlast] using hread
      | timedOut =>
          by_cases hretry : retries + 1 < maxRetries
          · have hpacket : buildDataPacket blockNum data = session.dataPacket acked := by
              rw [hhand.number, hhand.data_eq, Session.dataPacket]
            simp only [step, Session.resume, Session.timeout, hretry, ↓reduceIte,
              Server.settles, Nat.add_zero, tag, List.map_cons, List.map_nil, hpacket]
            exact Inv.sending hinv.bounded hhand.number hhand.data_eq hhand.offset_eq
              hhand.inside hretry hhand.current hhand.later
          · have hend := Inv.ended hinv.bounded .aborted acked (Or.inr rfl)
            simpa [step, Session.resume, Session.timeout, Server.settles, hretry] using hend
      | failed => exact Inv.ended hinv.bounded .aborted acked (Or.inr rfl)
  | complete =>
      have hend := Inv.ended hinv.bounded .complete acked (Or.inl rfl)
      cases wait <;> exact hend
  | aborted =>
      have hend := Inv.ended hinv.bounded .aborted acked (Or.inr rfl)
      cases wait <;> exact hend

theorem inv_after (session : Session) (waits : Nat → Wait) (n : Nat) :
    (session.after waits n).Inv session := by
  induction n with
  | zero => exact inv_initial session
  | succ n ih => exact inv_step ih (waits n)

/-- Blocks not yet settled and retries left for the one in hand. -/
def rank (session : Session) (transfer : Transfer) : Nat :=
  match transfer.server with
  | .awaitingAck0 => (session.content.length / session.blockSize + 1) * maxRetries + 1
  | .sending _ _ _ retries =>
      (session.content.length / session.blockSize - transfer.acked) * maxRetries +
        (maxRetries - retries)
  | .complete => 0
  | .aborted => 0

theorem rank_step_lt {session : Session} {transfer : Transfer} (hpos : 0 < session.blockSize)
    (hinv : transfer.Inv session) (hrunning : ¬ transfer.server.Ended) (wait : Wait) :
    (transfer.step session wait).rank session < transfer.rank session := by
  obtain ⟨server, acked, sent⟩ := transfer
  cases server with
  | awaitingAck0 =>
      obtain ⟨rfl, rfl⟩ := hinv.waiting rfl
      cases wait with
      | acked =>
          simp [step, Session.resume, Session.receive, Server.awaited, Server.settles, rank,
            Session.readBlock, Nat.add_mul]
      | timedOut => simp [step, Session.resume, Session.timeout, rank]
      | failed => simp [step, Session.resume, rank]
  | sending blockNum offset data retries =>
      have hhand := hinv.inHand blockNum offset data retries rfl
      have hretries := hhand.retries_lt
      have hpositive : 0 < (session.content.length / session.blockSize - acked) * maxRetries +
          (maxRetries - retries) := Nat.add_pos_right _ (Nat.sub_pos_of_lt hretries)
      cases wait with
      | acked =>
          by_cases hlast : data.length < session.blockSize
          · simpa [step, Session.resume, Session.receive, Server.awaited, Server.settles, rank,
              hlast] using hpositive
          · have hnext : acked + 1 ≤ session.content.length / session.blockSize :=
              (Nat.le_div_iff_mul_le hpos).mpr (hhand.next_inside hlast).2
            simp only [step, Session.resume, Session.receive, Server.awaited, Server.settles,
              rank, isAckOf_ackPacket, BEq.rfl, ↓reduceIte, hlast, Session.readBlock]
            have hsplit : session.content.length / session.blockSize - acked =
                session.content.length / session.blockSize - (acked + 1) + 1 := by
              omega
            rw [hsplit, Nat.add_mul, Nat.one_mul]
            omega
      | timedOut =>
          by_cases hretry : retries + 1 < maxRetries
          · simp only [step, Session.resume, Session.timeout, rank, hretry, ↓reduceIte,
              Server.settles, Nat.add_zero]
            omega
          · simpa [step, Session.resume, Session.timeout, rank, hretry] using hpositive
      | failed => simpa [step, Session.resume, rank] using hpositive
  | complete => exact absurd (Or.inl rfl) hrunning
  | aborted => exact absurd (Or.inr rfl) hrunning

end Transfer

namespace Session

open Transfer

theorem exists_ended {session : Session} (hpos : 0 < session.blockSize) (waits : Nat → Wait) :
    ∃ n, (session.after waits n).server.Ended := by
  obtain ⟨n, hstuck⟩ := WellFounded.not_rel_apply_succ (r := (· < ·))
    fun n => (session.after waits n).rank session
  refine ⟨n, ?_⟩
  by_contra hrunning
  exact hstuck (rank_step_lt hpos (inv_after session waits n) hrunning (waits n))

theorem blocksSent_le {session : Session} (hpos : 0 < session.blockSize) {transfer : Transfer}
    (hbounded : transfer.Bounded session) :
    transfer.blocksSent ≤ session.content.length / session.blockSize + 1 := by
  have hsubset : (transfer.sent.map Prod.fst).dedup ⊆
      List.range (session.content.length / session.blockSize + 1) := by
    intro index hindex
    obtain ⟨entry, hentry, rfl⟩ := List.mem_map.mp (List.mem_dedup.mp hindex)
    have hinside := (hbounded.sent_block entry hentry).1
    exact List.mem_range.mpr (Nat.lt_succ_of_le ((Nat.le_div_iff_mul_le hpos).mpr hinside))
  have hlength := (List.nodup_dedup _).subperm hsubset |>.length_le
  simpa [blocksSent] using hlength

theorem ends_of_pos {session : Session} (hpos : 0 < session.blockSize) : session.Ends := by
  intro waits
  refine ⟨exists_ended hpos waits, fun n => ?_⟩
  have hbounded := (inv_after session waits n).bounded
  exact ⟨fun entry hentry => (hbounded.sent_block entry hentry).2,
    blocksSent_le hpos hbounded, hbounded.sends_le⟩

/-- With blocks of no bytes an acknowledged block is never the short last one. -/
theorem running_of_blockSize_zero {session : Session} (hzero : session.blockSize = 0) (n : Nat) :
    ¬ (session.after (fun _ => .acked) n).server.Ended := by
  induction n with
  | zero =>
      cases hoack : session.oack with
      | none => simp [after, initial, start, hoack, readBlock, Server.Ended]
      | some oack => simp [after, initial, start, hoack, Server.Ended]
  | succ n ih =>
      simp only [after, step, resume]
      cases hserver : (session.after (fun _ => .acked) n).server with
      | awaitingAck0 => simp [receive, Server.awaited, readBlock, Server.Ended]
      | sending blockNum offset data retries =>
          simp [receive, Server.awaited, readBlock, Server.Ended, hzero]
      | complete => exact absurd (Or.inl hserver) ih
      | aborted => exact absurd (Or.inr hserver) ih

theorem ends_iff (session : Session) : session.Ends ↔ session.blockSize ≠ 0 := by
  constructor
  · intro hends hzero
    obtain ⟨n, hended⟩ := (hends fun _ => .acked).1
    exact running_of_blockSize_zero hzero n hended
  · intro hne
    exact ends_of_pos (Nat.pos_of_ne_zero hne)

end Session

theorem negotiatedBlockSize_eq_zero_iff (rrq : Rrq) :
    negotiatedBlockSize rrq = 0 ↔
      (optionGet rrq.options blksizeKey).bind (parseUnsigned usizeBound) = some 0 := by
  unfold negotiatedBlockSize
  cases (optionGet rrq.options blksizeKey).bind (parseUnsigned usizeBound) with
  | none => simp [defaultBlockSize, mtuSafe]
  | some size => simp [mtuSafe]

theorem handleInitialPacket_eq_opened_iff (platform : Platform) (rootDir : Str)
    (files : Str → FileState) (packet : List UInt8) (session : Session) :
    handleInitialPacket platform rootDir files packet = .opened session ↔
      ∃ rrq content, readRequest platform.lowercase packet = .ok (some rrq) ∧
        files (targetPath rootDir rrq.filename) = .file content ∧
        openSession platform rrq content = session := by
  unfold handleInitialPacket
  constructor
  · intro hopened
    split at hopened
    next => simp at hopened
    next => simp at hopened
    next rrq hrrq =>
      split at hopened
      next => simp at hopened
      next => simp at hopened
      next content hfile => exact ⟨rrq, content, hrrq, hfile, InitialOutcome.opened.inj hopened⟩
  · rintro ⟨rrq, content, hrrq, hfile, rfl⟩
    simp [hrrq, hfile]

/-- The sessions a packet opens end whatever the client acknowledges exactly
when the block size it asks for does not read as zero. -/
theorem handleInitialPacket_ends_iff (platform : Platform) (rootDir : Str)
    (files : Str → FileState) (packet : List UInt8) :
    (∀ session, handleInitialPacket platform rootDir files packet = .opened session →
        session.Ends) ↔
      ∀ rrq content, readRequest platform.lowercase packet = .ok (some rrq) →
        files (targetPath rootDir rrq.filename) = .file content →
        (optionGet rrq.options blksizeKey).bind (parseUnsigned usizeBound) ≠ some 0 := by
  have hsize : ∀ rrq content, (openSession platform rrq content).Ends ↔
      (optionGet rrq.options blksizeKey).bind (parseUnsigned usizeBound) ≠ some 0 :=
    fun rrq content => (Session.ends_iff _).trans (negotiatedBlockSize_eq_zero_iff rrq).not
  constructor
  · intro hends rrq content hrrq hfile
    have hopened := (handleInitialPacket_eq_opened_iff platform rootDir files packet _).mpr
      ⟨rrq, content, hrrq, hfile, rfl⟩
    exact (hsize rrq content).mp (hends _ hopened)
  · intro hnonzero session hopened
    obtain ⟨rrq, content, hrrq, hfile, rfl⟩ :=
      (handleInitialPacket_eq_opened_iff platform rootDir files packet session).mp hopened
    exact (hsize rrq content).mpr (hnonzero rrq content hrrq hfile)

namespace TerminationWitness

def zeroRequest : List UInt8 :=
  toBeBytes opRrq ++ encodeRrq "boot.img".toList "octet".toList
    [("blksize".toList, "0".toList)]

def bootImage (_path : Str) : FileState := .file [1, 2, 3]

/-- A client that asks for blocks of zero bytes and acknowledges each of them is
sent empty blocks for ever. -/
theorem zero_blksize_never_ends :
    ∃ session, handleInitialPacket TftpWitness.plain TftpWitness.tftpRoot bootImage
        zeroRequest = .opened session ∧
      ∀ n, ¬ (session.after (fun _ => .acked) n).server.Ended := by
  have hread : readRequest id zeroRequest =
      .ok (some ⟨"boot.img".toList, "octet".toList, [("blksize".toList, "0".toList)]⟩) := by
    decide
  refine ⟨_, (handleInitialPacket_eq_opened_iff _ _ _ _ _).mpr ⟨_, _, hread, rfl, rfl⟩, ?_⟩
  exact Session.running_of_blockSize_zero (by decide)

end TerminationWitness

end Tftp

end PiCluster
