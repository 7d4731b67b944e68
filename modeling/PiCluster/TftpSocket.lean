/-
The loops of a TFTP session over its socket.  `wait_for_ack` takes datagrams off the
socket until the acknowledgement comes or three seconds are over, the retry loop
sends a block up to five times, and the transfer loop goes through the file.  What
the loops do is a run of the session's automaton, and no datagram other than an
acknowledgement of the peer has a part in it.
-/
import PiCluster.TftpTermination

namespace PiCluster

namespace Tftp

open Text Bytes

/-- In milliseconds. -/
def tftpTimeout : Nat := 3000

/-- What a call of `recv_from` on the session's socket can return, with the time since
the one before it: a datagram and its sender, or an error. -/
structure Arrival (Peer : Type) where
  delay : Nat
  datagram : Option (Peer × Packet)

section Loops

variable {Peer : Type} [DecidableEq Peer]

/-- The test on what was received. -/
def Arrival.accepted (arrival : Arrival Peer) (peer : Peer) (expectedBlock : UInt16) : Bool :=
  match arrival.datagram with
  | some (sender, packet) => sender == peer && isAckOf expectedBlock packet
  | none => false

/-- `wait_for_ack`, with the time it has waited and what is still to arrive.  What
arrives after the deadline is left to the next wait. -/
def waitForAck (peer : Peer) (expectedBlock : UInt16) :
    Nat → List (Arrival Peer) → Bool × List (Arrival Peer)
  | _, [] => (false, [])
  | elapsed, arrival :: rest =>
      if elapsed + arrival.delay < tftpTimeout then
        if arrival.accepted peer expectedBlock then (true, rest)
        else waitForAck peer expectedBlock (elapsed + arrival.delay) rest
      else (false,
        { arrival with delay := arrival.delay - (tftpTimeout - elapsed) } :: rest)

/-- How the loop over the retries ends, what was sent by then and what is still to
arrive. -/
structure Sent (Peer : Type) where
  outcome : Wait
  packets : List Packet
  arrivals : List (Arrival Peer)

/-- `while retries < MAX_RETRIES`.  Whether the next send fails may depend on all that
was sent before. -/
def sendBlock (fails : List Packet → Bool) (peer : Peer) (blockNum : UInt16)
    (packet : Packet) : Nat → List Packet → List (Arrival Peer) → Sent Peer
  | 0, packets, arrivals => ⟨.timedOut, packets, arrivals⟩
  | retries + 1, packets, arrivals =>
      if fails packets then ⟨.failed, packets, arrivals⟩
      else
        let waited := waitForAck peer blockNum 0 arrivals
        if waited.1 then ⟨.acked, packets ++ [packet], waited.2⟩
        else sendBlock fails peer blockNum packet retries (packets ++ [packet]) waited.2

namespace Session

/-- The loop over the blocks of the file. -/
def sendFile (session : Session) (fails : List Packet → Bool) (peer : Peer) :
    Nat → UInt16 → Nat → List Packet → List (Arrival Peer) → Option (Server × List Packet)
  | 0, _, _, _, _ => none
  | fuel + 1, blockNum, offset, packets, arrivals =>
      let data := (session.content.drop offset).take session.blockSize
      let sent := sendBlock fails peer blockNum (buildDataPacket blockNum data) maxRetries
        packets arrivals
      match sent.outcome with
      | .acked =>
          if data.length < session.blockSize then some (.complete, sent.packets)
          else session.sendFile fails peer fuel (blockNum + 1) (offset + data.length)
            sent.packets sent.arrivals
      | _ => some (.aborted, sent.packets)

/-- The transfer of `handle_initial_packet`, once the session is open. -/
def transfer (session : Session) (fails : List Packet → Bool) (peer : Peer)
    (arrivals : List (Arrival Peer)) : Option (Server × List Packet) :=
  match session.oack with
  | none => session.sendFile fails peer (arrivals.length + 1) 1 0 [] arrivals
  | some oack =>
      if fails [] then some (.aborted, [])
      else
        let waited := waitForAck peer 0 0 arrivals
        if waited.1 then
          session.sendFile fails peer (waited.2.length + 1) 1 0 [oack] waited.2
        else some (.aborted, [oack])

/-- The automaton after a list of waits, with all it has sent. -/
def runWaits (session : Session) (start : Server × List Packet) (waits : List Wait) :
    Server × List Packet :=
  waits.foldl (fun (server, packets) wait =>
    let result := session.resume server wait
    (result.1, packets ++ result.2)) start

end Session

theorem length_waitForAck (peer : Peer) (expectedBlock : UInt16) (elapsed : Nat)
    (arrivals : List (Arrival Peer)) :
    (waitForAck peer expectedBlock elapsed arrivals).2.length +
      (waitForAck peer expectedBlock elapsed arrivals).1.toNat ≤ arrivals.length := by
  induction arrivals generalizing elapsed with
  | nil => simp [waitForAck]
  | cons arrival rest ih =>
      rw [waitForAck]
      split
      · split
        · simp
        · have hrest := ih (elapsed + arrival.delay)
          rw [List.length_cons]
          omega
      · simp

/-- An acknowledged block has taken at least one datagram off the socket. -/
theorem length_sendBlock (fails : List Packet → Bool) (peer : Peer) (blockNum : UInt16)
    (packet : Packet) (retries : Nat) (packets : List Packet)
    (arrivals : List (Arrival Peer)) {sent : Sent Peer}
    (hsent : sendBlock fails peer blockNum packet retries packets arrivals = sent)
    (hacked : sent.outcome = .acked) : sent.arrivals.length < arrivals.length := by
  induction retries generalizing packets arrivals with
  | zero =>
      subst hsent
      cases hacked
  | succ retries ih =>
      have hwaited := length_waitForAck peer blockNum 0 arrivals
      rw [sendBlock] at hsent
      split at hsent
      · subst hsent
        cases hacked
      · dsimp only at hsent
        split at hsent
        · rename_i htrue
          subst hsent
          rw [htrue, Bool.toNat_true] at hwaited
          exact hwaited
        · have hrest := ih _ _ hsent
          omega

/-- A first send that fails. -/
theorem sendBlock_of_fails {fails : List Packet → Bool} {packets : List Packet}
    (hfails : fails packets = true) (peer : Peer) (blockNum : UInt16) (packet : Packet)
    (retries : Nat) (arrivals : List (Arrival Peer)) :
    sendBlock fails peer blockNum packet (retries + 1) packets arrivals =
      ⟨.failed, packets, arrivals⟩ := by
  rw [sendBlock, if_pos hfails]

/-- A send that succeeds, and the wait after it. -/
theorem sendBlock_of_not_fails {fails : List Packet → Bool} {packets : List Packet}
    (hfails : fails packets = false) (peer : Peer) (blockNum : UInt16) (packet : Packet)
    (retries : Nat) (arrivals : List (Arrival Peer)) :
    sendBlock fails peer blockNum packet (retries + 1) packets arrivals =
      if (waitForAck peer blockNum 0 arrivals).1 then
        ⟨.acked, packets ++ [packet], (waitForAck peer blockNum 0 arrivals).2⟩
      else sendBlock fails peer blockNum packet retries (packets ++ [packet])
        (waitForAck peer blockNum 0 arrivals).2 := by
  rw [sendBlock, if_neg (by simp [hfails])]

section Automaton

variable (session : Session)

theorem runWaits_cons (server : Server) (packets : List Packet) (wait : Wait)
    (waits : List Wait) :
    session.runWaits (server, packets) (wait :: waits) =
      session.runWaits ((session.resume server wait).1,
        packets ++ (session.resume server wait).2) waits := rfl

theorem runWaits_append (start : Server × List Packet) (waits later : List Wait) :
    session.runWaits start (waits ++ later) =
      session.runWaits (session.runWaits start waits) later :=
  List.foldl_append

variable (blockNum : UInt16) (offset : Nat) (data : List UInt8) (used : Nat)

theorem resume_retry (hretry : used + 1 < maxRetries) :
    session.resume (.sending blockNum offset data used) .timedOut =
      (.sending blockNum offset data (used + 1), [buildDataPacket blockNum data]) :=
  if_pos hretry

theorem resume_last (hlast : used + 1 = maxRetries) :
    session.resume (.sending blockNum offset data used) .timedOut = (.aborted, []) :=
  if_neg (by omega)

theorem resume_acked :
    session.resume (.sending blockNum offset data used) .acked =
      if data.length < session.blockSize then (.complete, [])
      else session.readBlock (blockNum + 1) offset := by
  simp only [Session.resume, Session.receive, Server.awaited, isAckOf_ackPacket, BEq.rfl, if_true]

end Automaton

/-- Where the automaton is when the loop over the retries ends. -/
def Reached (blockNum : UInt16) (offset : Nat) (data : List UInt8) :
    Wait → Server → Prop
  | .acked, server => ∃ used, server = .sending blockNum offset data used
  | _, server => server = .aborted

/-- The loop over the retries, from the automaton's state after `used` timeouts. -/
theorem sendBlock_runs (session : Session) {fails : List Packet → Bool} (peer : Peer)
    (blockNum : UInt16) (offset : Nat) (data : List UInt8) {left used : Nat}
    (hleft : used + (left + 1) = maxRetries) {packets : List Packet}
    (hfails : fails packets = false) (arrivals : List (Arrival Peer)) {sent : Sent Peer}
    (hsent : sendBlock fails peer blockNum (buildDataPacket blockNum data) (left + 1) packets
      arrivals = sent) :
    ∃ waits server, session.runWaits (.sending blockNum offset data used,
        packets ++ [buildDataPacket blockNum data]) waits = (server, sent.packets) ∧
      Reached blockNum offset data sent.outcome server := by
  induction left generalizing used packets arrivals with
  | zero =>
      rw [sendBlock_of_not_fails hfails] at hsent
      split at hsent
      · subst hsent
        exact ⟨[], _, rfl, used, rfl⟩
      · subst hsent
        refine ⟨[.timedOut], .aborted, ?_, rfl⟩
        rw [runWaits_cons, resume_last session blockNum offset data used hleft, List.append_nil]
        rfl
  | succ left ih =>
      rw [sendBlock_of_not_fails hfails] at hsent
      split at hsent
      · subst hsent
        exact ⟨[], _, rfl, used, rfl⟩
      · have hretry := resume_retry session blockNum offset data used (by omega)
        cases hnext : fails (packets ++ [buildDataPacket blockNum data]) with
        | true =>
            rw [sendBlock_of_fails hnext] at hsent
            subst hsent
            refine ⟨[.failed], .aborted, ?_, rfl⟩
            rw [runWaits_cons]
            exact congrArg (Server.aborted, ·) (List.append_nil _)
        | false =>
            have hused : used + 1 + (left + 1) = maxRetries := by omega
            obtain ⟨waits, server, hrun, hserver⟩ := ih hused hnext _ hsent
            refine ⟨.timedOut :: waits, server, ?_, hserver⟩
            rw [runWaits_cons, hretry]
            exact hrun

namespace Session

variable (session : Session) {fails : List Packet → Bool} (peer : Peer)

theorem sendFile_of_fails {packets : List Packet} (hfails : fails packets = true) (fuel : Nat)
    (blockNum : UInt16) (offset : Nat) (arrivals : List (Arrival Peer)) :
    session.sendFile fails peer (fuel + 1) blockNum offset packets arrivals =
      some (.aborted, packets) := by
  simp only [sendFile, maxRetries, sendBlock_of_fails hfails]

/-- With more fuel than there are datagrams to come, the loop over the blocks ends, and
it is a run of the automaton from the block it starts with. -/
theorem sendFile_runs {fuel : Nat} (blockNum : UInt16) (offset : Nat) {packets : List Packet}
    (hfails : fails packets = false) {arrivals : List (Arrival Peer)}
    (hfuel : arrivals.length < fuel) :
    ∃ waits result, session.sendFile fails peer fuel blockNum offset packets arrivals =
        some result ∧
      session.runWaits ((session.readBlock blockNum offset).1,
        packets ++ (session.readBlock blockNum offset).2) waits = result ∧
      result.1.Ended := by
  induction fuel generalizing blockNum offset packets arrivals with
  | zero => exact absurd hfuel (Nat.not_lt_zero _)
  | succ fuel ih =>
      rw [sendFile, readBlock]
      generalize (session.content.drop offset).take session.blockSize = data
      generalize hsent : sendBlock fails peer blockNum (buildDataPacket blockNum data)
        maxRetries packets arrivals = sent
      have hshorter := length_sendBlock fails peer blockNum _ maxRetries packets arrivals hsent
      obtain ⟨waits, server, hrun, hserver⟩ := sendBlock_runs session peer blockNum
        (offset + data.length) data (show 0 + (4 + 1) = maxRetries from rfl) hfails arrivals
        hsent
      dsimp only
      cases houtcome : sent.outcome with
      | timedOut | failed =>
          rw [houtcome] at hserver
          obtain rfl := hserver
          exact ⟨waits, _, rfl, hrun, Or.inr rfl⟩
      | acked =>
          rw [houtcome] at hserver
          obtain ⟨used, rfl⟩ := hserver
          have hacked := resume_acked session blockNum (offset + data.length) data used
          by_cases hlast : data.length < session.blockSize
          · rw [if_pos hlast] at hacked
            refine ⟨waits ++ [.acked], (.complete, sent.packets), if_pos hlast, ?_, Or.inl rfl⟩
            rw [runWaits_append, hrun, runWaits_cons, hacked, List.append_nil]
            rfl
          · rw [if_neg hlast] at hacked ⊢
            have hrest : sent.arrivals.length < fuel := by
              have := hshorter houtcome
              omega
            cases hnext : fails sent.packets with
            | true =>
                obtain ⟨more, rfl⟩ := Nat.exists_eq_add_of_lt hrest
                refine ⟨waits ++ [.failed], (.aborted, sent.packets), ?_, ?_, Or.inr rfl⟩
                · exact session.sendFile_of_fails peer hnext _ _ _ _
                · rw [runWaits_append, hrun, runWaits_cons]
                  exact congrArg (Server.aborted, ·) (List.append_nil _)
            | false =>
                obtain ⟨later, result, hresult, hlater, hended⟩ :=
                  ih (blockNum + 1) (offset + data.length) hnext hrest
                refine ⟨waits ++ .acked :: later, result, hresult, ?_, hended⟩
                rw [runWaits_append, hrun, runWaits_cons, hacked]
                exact hlater

/-- A session that cannot send its first packet ends with nothing sent. -/
theorem transfer_of_fails (hfirst : fails [] = true) (arrivals : List (Arrival Peer)) :
    session.transfer fails peer arrivals = some (.aborted, []) := by
  unfold transfer
  cases session.oack with
  | none => exact session.sendFile_of_fails peer hfirst _ _ _ _
  | some oack => exact if_pos hfirst

theorem transfer_of_not_fails (hfirst : fails [] = false) (arrivals : List (Arrival Peer)) :
    ∃ waits result, session.transfer fails peer arrivals = some result ∧
      session.runWaits session.start waits = result ∧ result.1.Ended := by
  unfold transfer start
  cases hoack : session.oack with
  | none => exact session.sendFile_runs peer 1 0 hfirst (Nat.lt_succ_self _)
  | some oack =>
      dsimp only
      rw [if_neg (by simp [hfirst])]
      cases hwaited : (waitForAck peer 0 0 arrivals).1 with
      | false =>
          exact ⟨[.timedOut], (.aborted, [oack]), rfl, rfl, Or.inr rfl⟩
      | true =>
          rw [if_pos rfl]
          cases hnext : fails [oack] with
          | true =>
              exact ⟨[.failed], (.aborted, [oack]), session.sendFile_of_fails peer hnext _ _ _ _,
                rfl, Or.inr rfl⟩
          | false =>
              obtain ⟨later, result, hresult, hlater, hended⟩ :=
                session.sendFile_runs peer 1 0 hnext (Nat.lt_succ_self _)
              exact ⟨.acked :: later, result, hresult, hlater, hended⟩

/-- The loops come to an end, and unless the very first send fails, so that nothing is
sent at all, what they do is a run of the automaton. -/
theorem transfer_runs (fails : List Packet → Bool) (arrivals : List (Arrival Peer)) :
    ∃ result, session.transfer fails peer arrivals = some result ∧ result.1.Ended ∧
      (fails [] = true ∧ result = (.aborted, []) ∨
        fails [] = false ∧ ∃ waits, session.runWaits session.start waits = result) := by
  cases hfirst : fails [] with
  | true =>
      exact ⟨_, session.transfer_of_fails peer hfirst arrivals, Or.inr rfl, Or.inl ⟨rfl, rfl⟩⟩
  | false =>
      obtain ⟨waits, result, hresult, hrun, hended⟩ :=
        session.transfer_of_not_fails peer hfirst arrivals
      exact ⟨result, hresult, hended, Or.inr ⟨rfl, waits, hrun⟩⟩

end Session

namespace SocketWitness

/-- A file of three bytes in blocks of two. -/
def session : Session := ⟨2, [1, 2, 3], none⟩

/-- A stranger acknowledges before the peer does, and the second acknowledgement comes
after a retry. -/
def arrivals : List (Arrival Bool) :=
  [⟨10, some (false, ackPacket 1)⟩, ⟨20, some (true, ackPacket 1)⟩, ⟨3500, none⟩,
    ⟨5, some (true, ackPacket 2)⟩]

theorem retried_file_runs : ∃ waits result,
    session.transfer (fun _ => false) true arrivals = some result ∧
      session.runWaits session.start waits = result ∧ result.1.Ended := by
  obtain ⟨result, hresult, hended, ⟨hfirst, -⟩ | ⟨-, waits, hrun⟩⟩ :=
    session.transfer_runs true (fun _ => false) arrivals
  · cases hfirst
  · exact ⟨waits, result, hresult, hrun, hended⟩

end SocketWitness

/-- An acknowledgement of some block, sent by the peer. -/
def Arrival.isAckFrom (arrival : Arrival Peer) (peer : Peer) : Bool :=
  match arrival.datagram with
  | some (sender, packet) =>
      sender == peer &&
        match packet.take 64 with
        | op1 :: op0 :: _ :: _ :: _ => fromBeBytes op1 op0 == opAck
        | _ => false
  | none => false

/-- Only the peer's acknowledgements, at the times they arrive; `extra` is the time of
what was left out right before. -/
def onlyAcks (peer : Peer) : Nat → List (Arrival Peer) → List (Arrival Peer)
  | _, [] => []
  | extra, arrival :: rest =>
      if arrival.isAckFrom peer then
        { arrival with delay := extra + arrival.delay } :: onlyAcks peer 0 rest
      else onlyAcks peer (extra + arrival.delay) rest

section Strays

variable {peer : Peer} {arrival : Arrival Peer}

theorem isAckFrom_of_accepted {expectedBlock : UInt16}
    (haccepted : arrival.accepted peer expectedBlock = true) :
    arrival.isAckFrom peer = true := by
  unfold Arrival.accepted at haccepted
  unfold Arrival.isAckFrom
  cases hdatagram : arrival.datagram with
  | none =>
      rw [hdatagram] at haccepted
      cases haccepted
  | some received =>
      obtain ⟨sender, packet⟩ := received
      rw [hdatagram] at haccepted
      obtain ⟨hsender, hack⟩ := Bool.and_eq_true_iff.mp haccepted
      unfold isAckOf at hack
      dsimp only
      rw [hsender, Bool.true_and]
      split at hack
      · rename_i hpacket
        simpa only [hpacket] using (Bool.and_eq_true_iff.mp hack).1
      · cases hack

theorem onlyAcks_cons_ack (hack : arrival.isAckFrom peer = true) (extra : Nat)
    (rest : List (Arrival Peer)) :
    onlyAcks peer extra (arrival :: rest) =
      { arrival with delay := extra + arrival.delay } :: onlyAcks peer 0 rest :=
  if_pos hack

theorem onlyAcks_cons_stray (hstray : arrival.isAckFrom peer = false) (extra : Nat)
    (rest : List (Arrival Peer)) :
    onlyAcks peer extra (arrival :: rest) = onlyAcks peer (extra + arrival.delay) rest :=
  if_neg (by simp [hstray])

/-- When the deadline falls into the time that was left out. -/
theorem waitForAck_onlyAcks_late (expectedBlock : UInt16) {elapsed extra : Nat}
    (helapsed : elapsed ≤ tftpTimeout) (hlate : tftpTimeout ≤ elapsed + extra)
    (arrivals : List (Arrival Peer)) :
    waitForAck peer expectedBlock elapsed (onlyAcks peer extra arrivals) =
      (false, onlyAcks peer (extra - (tftpTimeout - elapsed)) arrivals) := by
  induction arrivals generalizing extra with
  | nil => rfl
  | cons arrival rest ih =>
      cases hack : arrival.isAckFrom peer with
      | true =>
          rw [onlyAcks_cons_ack hack, onlyAcks_cons_ack hack, waitForAck,
            if_neg (by dsimp only; omega)]
          have hdelay : extra + arrival.delay - (tftpTimeout - elapsed) =
              extra - (tftpTimeout - elapsed) + arrival.delay := by omega
          rw [hdelay]
      | false =>
          have hdelay : extra + arrival.delay - (tftpTimeout - elapsed) =
              extra - (tftpTimeout - elapsed) + arrival.delay := by omega
          rw [onlyAcks_cons_stray hack, onlyAcks_cons_stray hack, ih (by omega), hdelay]

/-- A wait goes the same way without the strays. -/
theorem waitForAck_onlyAcks (peer : Peer) (expectedBlock : UInt16) {elapsed extra : Nat}
    (hextra : elapsed + extra < tftpTimeout) (arrivals : List (Arrival Peer)) :
    waitForAck peer expectedBlock elapsed (onlyAcks peer extra arrivals) =
      ((waitForAck peer expectedBlock (elapsed + extra) arrivals).1,
        onlyAcks peer 0 (waitForAck peer expectedBlock (elapsed + extra) arrivals).2) := by
  induction arrivals generalizing elapsed extra with
  | nil => rfl
  | cons arrival rest ih =>
      cases hack : arrival.isAckFrom peer with
      | true =>
          rw [onlyAcks_cons_ack hack, waitForAck, waitForAck, ← Nat.add_assoc]
          by_cases hinTime : elapsed + extra + arrival.delay < tftpTimeout
          · rw [if_pos hinTime, if_pos hinTime]
            change (if arrival.accepted peer expectedBlock then _ else _) = _
            split
            · rfl
            · have hrest : elapsed + extra + arrival.delay + 0 < tftpTimeout := hinTime
              exact ih hrest
          · have hstill : ({ arrival with
                delay := arrival.delay - (tftpTimeout - (elapsed + extra)) } :
                  Arrival Peer).isAckFrom peer = true := hack
            have hdelay : extra + arrival.delay - (tftpTimeout - elapsed) =
                arrival.delay - (tftpTimeout - (elapsed + extra)) := by omega
            rw [if_neg hinTime, if_neg hinTime]
            dsimp only
            rw [onlyAcks_cons_ack hstill, Nat.zero_add, hdelay]
      | false =>
          have hnot : arrival.accepted peer expectedBlock = false := by
            rw [Bool.eq_false_iff]
            intro haccepted
            rw [isAckFrom_of_accepted haccepted] at hack
            cases hack
          rw [onlyAcks_cons_stray hack, waitForAck]
          by_cases hinTime : elapsed + extra + arrival.delay < tftpTimeout
          · rw [if_pos hinTime, hnot, if_neg Bool.false_ne_true, Nat.add_assoc]
            exact ih (by omega)
          · have hstill : ({ arrival with
                delay := arrival.delay - (tftpTimeout - (elapsed + extra)) } :
                  Arrival Peer).isAckFrom peer = false := hack
            have hdelay : extra + arrival.delay - (tftpTimeout - elapsed) =
                arrival.delay - (tftpTimeout - (elapsed + extra)) := by omega
            rw [if_neg hinTime, waitForAck_onlyAcks_late expectedBlock (by omega) (by omega)]
            dsimp only
            rw [onlyAcks_cons_stray hstill, Nat.zero_add, hdelay]

theorem sendBlock_onlyAcks (fails : List Packet → Bool) (peer : Peer) (blockNum : UInt16)
    (packet : Packet) (retries : Nat) (packets : List Packet)
    (arrivals : List (Arrival Peer)) {sent : Sent Peer}
    (hsent : sendBlock fails peer blockNum packet retries packets arrivals = sent) :
    sendBlock fails peer blockNum packet retries packets (onlyAcks peer 0 arrivals) =
      { sent with arrivals := onlyAcks peer 0 sent.arrivals } := by
  induction retries generalizing packets arrivals with
  | zero =>
      subst hsent
      rfl
  | succ retries ih =>
      cases hfails : fails packets with
      | true =>
          rw [sendBlock_of_fails hfails] at hsent ⊢
          subst hsent
          rfl
      | false =>
          have hwait := waitForAck_onlyAcks peer blockNum
            (show 0 + 0 < tftpTimeout by decide) arrivals
          rw [sendBlock_of_not_fails hfails] at hsent ⊢
          rw [hwait]
          split at hsent
          · rename_i hacked
            subst hsent
            exact if_pos hacked
          · rename_i hacked
            exact (if_neg hacked).trans (ih _ _ hsent)

/-- The loop over the blocks, with enough fuel on both sides. -/
theorem Session.sendFile_onlyAcks (session : Session) (fails : List Packet → Bool) (peer : Peer)
    {fuel less : Nat} (blockNum : UInt16) (offset : Nat) (packets : List Packet)
    {arrivals : List (Arrival Peer)} (hfuel : arrivals.length < fuel)
    (hless : (onlyAcks peer 0 arrivals).length < less) :
    session.sendFile fails peer less blockNum offset packets (onlyAcks peer 0 arrivals) =
      session.sendFile fails peer fuel blockNum offset packets arrivals := by
  induction fuel generalizing less blockNum offset packets arrivals with
  | zero => exact absurd hfuel (Nat.not_lt_zero _)
  | succ fuel ih =>
      obtain ⟨less, rfl⟩ := Nat.exists_eq_succ_of_ne_zero (Nat.ne_zero_of_lt hless)
      rw [sendFile, sendFile]
      generalize (session.content.drop offset).take session.blockSize = data
      generalize hsent : sendBlock fails peer blockNum (buildDataPacket blockNum data)
        maxRetries packets arrivals = sent
      have hkept := sendBlock_onlyAcks fails peer blockNum _ maxRetries packets arrivals hsent
      have hshorter := length_sendBlock fails peer blockNum _ maxRetries packets arrivals hsent
      have hshorter' := length_sendBlock fails peer blockNum _ maxRetries packets _ hkept
      rw [hkept]
      dsimp only at hshorter' ⊢
      cases houtcome : sent.outcome with
      | timedOut | failed => rfl
      | acked =>
          have hrest := hshorter houtcome
          have hrest' := hshorter' houtcome
          dsimp only
          split
          · rfl
          · exact ih _ _ _ (by omega) (by omega)

/-- No datagram but an acknowledgement of the peer has a part in a transfer: whatever
else arrives at the session's socket, and whenever, the same packets are sent and the
session ends in the same way. -/
theorem Session.transfer_onlyAcks (session : Session) (fails : List Packet → Bool) (peer : Peer)
    (arrivals : List (Arrival Peer)) :
    session.transfer fails peer (onlyAcks peer 0 arrivals) =
      session.transfer fails peer arrivals := by
  unfold transfer
  cases session.oack with
  | none =>
      exact session.sendFile_onlyAcks fails peer 1 0 [] (Nat.lt_succ_self _)
        (Nat.lt_succ_self _)
  | some oack =>
      have hwait := waitForAck_onlyAcks peer 0 (show 0 + 0 < tftpTimeout by decide) arrivals
      dsimp only
      rw [hwait]
      split
      · rfl
      · split
        · exact session.sendFile_onlyAcks fails peer 1 0 [oack] (Nat.lt_succ_self _)
            (Nat.lt_succ_self _)
        · rfl

end Strays

end Loops

end Tftp

end PiCluster
