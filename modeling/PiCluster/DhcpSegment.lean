/-
ProxyDHCP listeners on one network segment.  Their replies are broadcast, so any
listener may receive the reply of another one or its own, late and any number of
times.  No reply is ever answered: every reply goes back to a message of somebody
else, and there are no more of them than such messages were received.
-/
import PiCluster.ProxyDhcp

namespace PiCluster

open Text Dhcp

/-- What `dhcproto` is assumed to do with messages: what a reply is written as is read
back as a reply, also from the first part of the bytes. -/
structure MessageCodec where
  decode : List UInt8 → Option Message
  encode : Message → Option (List UInt8)
  reply_kept : ∀ reply bytes, reply.opcode = .bootReply → encode reply = some bytes →
    ∀ count read, decode (bytes.take count) = some read → read.opcode = .bootReply

/-- Who put a datagram on the segment. -/
inductive Sender (ι : Type) where
  | foreign
  | proxy (i : ι)
deriving DecidableEq, Repr

structure Datagram (ι : Type) where
  sender : Sender ι
  bytes : List UInt8
deriving DecidableEq, Repr

def Datagram.isForeign {ι : Type} (datagram : Datagram ι) : Bool :=
  match datagram.sender with
  | .foreign => true
  | .proxy _ => false

/-- Where a listener's `run` stands. -/
inductive ListenerPhase where
  | unbound
  | listening
  | ended
deriving DecidableEq, Repr

/-- `sent` are the datagrams so far, oldest first; each of them can arrive anywhere
at any later time. -/
structure Segment (ι : Type) where
  sent : List (Datagram ι)
  phases : ι → ListenerPhase

/-- `receive` is a turn of a listener's loop with what the API server lists during it
and whether the reply could be sent. -/
inductive SegmentEvent (ι : Type) where
  | send (bytes : List UInt8)
  | bind (i : ι) (bound : Bool)
  | receive (i : ι) (position : Nat) (listed : Option (List NodeObject)) (delivered : Bool)
  | receiveError (i : ι)
  | cancel (i : ι)

namespace ProxyDhcpServer

/-- The size of the receive buffer. -/
def bufferSize : Nat := 2048

/-- The bytes a received datagram is answered with, or the panic it leads to. -/
def answer (fields : BoundedFields) (codec : MessageCodec) (server : ProxyDhcpServer)
    (listed : Option (List NodeObject)) (bytes : List UInt8) :
    Except Str (Option (List UInt8)) :=
  match codec.decode (bytes.take bufferSize) with
  | none => .ok none
  | some request => do
      let reply ← { server with registered := listed }.processPacket fields request
      return reply.bind codec.encode

/-- The bytes are the reply to a request of a PXE client. -/
def Replies (fields : BoundedFields) (codec : MessageCodec) (server : ProxyDhcpServer)
    (asked bytes : List UInt8) : Prop :=
  ∃ request listed reply, codec.decode (asked.take bufferSize) = some request ∧
    request.opcode = .bootRequest ∧ isPxe request = true ∧
    { server with registered := listed }.processPacket fields request = .ok (some reply) ∧
    codec.encode reply = some bytes

variable {fields : BoundedFields} {codec : MessageCodec} {server : ProxyDhcpServer}

theorem replies_of_answer {listed : Option (List NodeObject)} {asked bytes : List UInt8}
    (hanswer : server.answer fields codec listed asked = .ok (some bytes)) :
    Replies fields codec server asked bytes := by
  unfold answer at hanswer
  cases hdecode : codec.decode (asked.take bufferSize) with
  | none =>
      rw [hdecode] at hanswer
      cases hanswer
  | some request =>
      rw [hdecode] at hanswer
      cases hprocess : { server with registered := listed }.processPacket fields request with
      | error panic =>
          simp only [hprocess, bind, Except.bind] at hanswer
          cases hanswer
      | ok outcome =>
          simp only [hprocess, bind, Except.bind, pure, Except.pure, Except.ok.injEq]
            at hanswer
          obtain ⟨reply, rfl, hencode⟩ := Option.bind_eq_some_iff.mp hanswer
          obtain ⟨hopcode, hpxe, _⟩ := exists_reply_iff.mp ⟨reply, hprocess⟩
          exact ⟨request, listed, reply, hdecode, hopcode, hpxe, hprocess, hencode⟩

/-- A reply is not answered, by whichever listener. -/
theorem answer_of_replies {other : ProxyDhcpServer} {asked bytes : List UInt8}
    (hreplies : Replies fields codec other asked bytes) (listed : Option (List NodeObject))
    (further : List UInt8) :
    server.answer fields codec listed bytes ≠ .ok (some further) := by
  obtain ⟨request, earlier, reply, -, -, -, hreply, hencode⟩ := hreplies
  intro hanswered
  obtain ⟨read, _, _, hread, hopcode, _⟩ := replies_of_answer hanswered
  have hkept := codec.reply_kept reply bytes (isReply_of_processPacket hreply).opcode hencode
    bufferSize read hread
  rw [hopcode] at hkept
  cases hkept

end ProxyDhcpServer

namespace Segment

variable {ι : Type}

def initial : Segment ι := ⟨[], fun _ => .unbound⟩

/-- The datagram at a position is somebody else's. -/
def foreignAt (segment : Segment ι) (position : Nat) : Bool :=
  segment.sent[position]?.any Datagram.isForeign

variable [DecidableEq ι] (fields : BoundedFields) (codec : MessageCodec)
  (servers : ι → ProxyDhcpServer)

/-- What a listener makes of a datagram it receives. -/
def heard (segment : Segment ι) (i : ι) (position : Nat)
    (listed : Option (List NodeObject)) : Except Str (Option (List UInt8)) :=
  match segment.sent[position]? with
  | some datagram => (servers i).answer fields codec listed datagram.bytes
  | none => .ok none

/-- A turn of a listener's loop.  A panic ends its task. -/
def receive (segment : Segment ι) (i : ι) (position : Nat)
    (listed : Option (List NodeObject)) (delivered : Bool) : Segment ι :=
  match segment.heard fields codec servers i position listed with
  | .ok (some reply) =>
      if delivered then { segment with sent := segment.sent ++ [⟨.proxy i, reply⟩] }
      else segment
  | .ok none => segment
  | .error _ => { segment with phases := Function.update segment.phases i .ended }

def step (segment : Segment ι) : SegmentEvent ι → Segment ι
  | .send bytes => { segment with sent := segment.sent ++ [⟨.foreign, bytes⟩] }
  | .bind i bound =>
      if segment.phases i = .unbound then
        { segment with
          phases := Function.update segment.phases i (if bound then .listening else .ended) }
      else segment
  | .receive i position listed delivered =>
      if segment.phases i = .listening then
        segment.receive fields codec servers i position listed delivered
      else segment
  | .receiveError _ => segment
  | .cancel i =>
      if segment.phases i = .listening then
        { segment with phases := Function.update segment.phases i .ended }
      else segment

def run (events : List (SegmentEvent ι)) : Segment ι :=
  events.foldl (step fields codec servers) initial

end Segment

/-- A listener receives a datagram that is somebody else's. -/
def SegmentEvent.hears {ι : Type} (segment : Segment ι) : SegmentEvent ι → Bool
  | .receive _ position _ _ => segment.foreignAt position
  | _ => false

namespace Segment

variable {ι : Type}

/-- What was sent stays where it is. -/
theorem foreignAt_append {sent : List (Datagram ι)} {phases : ι → ListenerPhase}
    {position : Nat} (hforeign : foreignAt ⟨sent, phases⟩ position = true)
    (later : List (Datagram ι)) (phases' : ι → ListenerPhase) :
    foreignAt ⟨sent ++ later, phases'⟩ position = true := by
  unfold foreignAt at hforeign ⊢
  cases hdatagram : sent[position]? with
  | none =>
      rw [hdatagram] at hforeign
      cases hforeign
  | some datagram =>
      rw [List.getElem?_append_left (List.getElem?_eq_some_iff.mp hdatagram).1]
      exact hforeign

/-- Every reply was made to an earlier datagram of somebody else. -/
def Answered (fields : BoundedFields) (codec : MessageCodec)
    (servers : ι → ProxyDhcpServer) (sent : List (Datagram ι)) : Prop :=
  ∀ (position : Nat) (i : ι) (bytes : List UInt8), sent[position]? = some ⟨.proxy i, bytes⟩ →
    ∃ (earlier : Nat) (asked : List UInt8), earlier < position ∧
      sent[earlier]? = some ⟨.foreign, asked⟩ ∧
      ProxyDhcpServer.Replies fields codec (servers i) asked bytes

variable {fields : BoundedFields} {codec : MessageCodec} {servers : ι → ProxyDhcpServer}
  {sent : List (Datagram ι)}

theorem Answered.snoc (hanswered : Answered fields codec servers sent) {new : Datagram ι}
    (hnew : ∀ i, new.sender = .proxy i → ∃ (earlier : Nat) (asked : List UInt8),
      sent[earlier]? = some ⟨.foreign, asked⟩ ∧
        ProxyDhcpServer.Replies fields codec (servers i) asked new.bytes) :
    Answered fields codec servers (sent ++ [new]) := by
  have hold : ∀ {earlier : Nat} {datagram : Datagram ι}, sent[earlier]? = some datagram →
      (sent ++ [new])[earlier]? = some datagram := by
    intro earlier datagram hearlier
    rw [List.getElem?_append_left (List.getElem?_eq_some_iff.mp hearlier).1]
    exact hearlier
  intro position i bytes hposition
  rcases Nat.lt_or_ge position sent.length with hlt | hge
  · rw [List.getElem?_append_left hlt] at hposition
    obtain ⟨earlier, asked, hearlier, hasked, hreplies⟩ := hanswered position i bytes hposition
    exact ⟨earlier, asked, hearlier, hold hasked, hreplies⟩
  · rw [List.getElem?_append_right hge, List.getElem?_singleton] at hposition
    split at hposition
    · obtain rfl : new = ⟨.proxy i, bytes⟩ := Option.some.inj hposition
      obtain ⟨earlier, asked, hasked, hreplies⟩ := hnew i rfl
      have hearlier := (List.getElem?_eq_some_iff.mp hasked).1
      exact ⟨earlier, asked, by omega, hold hasked, hreplies⟩
    · cases hposition

/-- Only somebody else's datagram gets an answer. -/
theorem Answered.sender_eq (hanswered : Answered fields codec servers sent) {position : Nat}
    {datagram : Datagram ι} (hdatagram : sent[position]? = some datagram)
    {server : ProxyDhcpServer} {listed : Option (List NodeObject)} {reply : List UInt8}
    (hreply : server.answer fields codec listed datagram.bytes = .ok (some reply)) :
    datagram = ⟨.foreign, datagram.bytes⟩ := by
  obtain ⟨sender, bytes⟩ := datagram
  cases sender with
  | foreign => rfl
  | proxy i =>
      obtain ⟨earlier, asked, -, -, hreplies⟩ := hanswered position i bytes hdatagram
      exact absurd hreply (ProxyDhcpServer.answer_of_replies hreplies listed reply)

variable [DecidableEq ι] {segment : Segment ι}

/-- A turn of a listener's loop sends nothing, or the answer to a datagram. -/
theorem sent_receive (i : ι) (position : Nat) (listed : Option (List NodeObject))
    (delivered : Bool) :
    (segment.receive fields codec servers i position listed delivered).sent = segment.sent ∨
      ∃ (datagram : Datagram ι) (reply : List UInt8), segment.sent[position]? = some datagram ∧
        (servers i).answer fields codec listed datagram.bytes = .ok (some reply) ∧
        (segment.receive fields codec servers i position listed delivered).sent =
          segment.sent ++ [⟨.proxy i, reply⟩] := by
  unfold receive
  split
  next reply hheard =>
    unfold heard at hheard
    cases delivered with
    | false => exact Or.inl rfl
    | true =>
        split at hheard
        next datagram hdatagram => exact Or.inr ⟨datagram, reply, hdatagram, hheard, rfl⟩
        next => cases hheard
  next => exact Or.inl rfl
  next => exact Or.inl rfl

/-- A step adds nothing, somebody else's datagram, or the answer to one. -/
theorem sent_step (hanswered : Answered fields codec servers segment.sent)
    (event : SegmentEvent ι) :
    (segment.step fields codec servers event).sent = segment.sent ∨
    (∃ bytes, (segment.step fields codec servers event).sent =
      segment.sent ++ [⟨.foreign, bytes⟩]) ∨
    ∃ (i : ι) (position : Nat) (asked reply : List UInt8),
      segment.sent[position]? = some ⟨.foreign, asked⟩ ∧
      ProxyDhcpServer.Replies fields codec (servers i) asked reply ∧
      event.hears segment = true ∧
      (segment.step fields codec servers event).sent = segment.sent ++ [⟨.proxy i, reply⟩] := by
  cases event with
  | send bytes => exact Or.inr (Or.inl ⟨bytes, rfl⟩)
  | bind i bound | cancel i =>
      left
      unfold step
      dsimp only
      split <;> rfl
  | receiveError i => exact Or.inl rfl
  | receive i position listed delivered =>
      by_cases hlistening : segment.phases i = .listening
      · have hstep : segment.step fields codec servers (.receive i position listed delivered) =
            segment.receive fields codec servers i position listed delivered :=
          if_pos hlistening
        rw [hstep]
        rcases sent_receive i position listed delivered with hnone |
          ⟨datagram, reply, hdatagram, hreply, hsome⟩
        · exact Or.inl hnone
        · have hforeign := hanswered.sender_eq hdatagram hreply
          rw [hforeign] at hdatagram
          have hhears : (SegmentEvent.receive i position listed delivered).hears segment =
              true := by
            change foreignAt segment position = true
            rw [foreignAt, hdatagram]
            rfl
          exact Or.inr (Or.inr ⟨i, position, datagram.bytes, reply, hdatagram,
            ProxyDhcpServer.replies_of_answer hreply, hhears, hsome⟩)
      · have hstep : segment.step fields codec servers (.receive i position listed delivered) =
            segment := if_neg hlistening
        rw [hstep]
        exact Or.inl rfl

theorem run_snoc (events : List (SegmentEvent ι)) (event : SegmentEvent ι) :
    run fields codec servers (events ++ [event]) =
      (run fields codec servers events).step fields codec servers event :=
  List.foldl_concat ..

theorem answered_run (events : List (SegmentEvent ι)) :
    Answered fields codec servers (run fields codec servers events).sent := by
  induction events using List.reverseRecOn with
  | nil =>
      intro position i bytes hposition
      cases hposition
  | append_singleton events event ih =>
      rw [run_snoc]
      rcases sent_step ih event with hsame | ⟨bytes, hforeign⟩ |
        ⟨i, position, asked, reply, hasked, hreplies, -, hreply⟩
      · rw [hsame]
        exact ih
      · rw [hforeign]
        apply ih.snoc
        intro i hproxy
        cases hproxy
      · rw [hreply]
        apply ih.snoc
        rintro _ ⟨⟩
        exact ⟨position, asked, hasked, hreplies⟩

/-- Hearing somebody else's datagram is not undone by what is sent later. -/
theorem hears_step (segment : Segment ι) (event later : SegmentEvent ι)
    (hhears : later.hears segment = true) :
    later.hears (segment.step fields codec servers event) = true := by
  have hsent : ∃ more, (segment.step fields codec servers event).sent = segment.sent ++ more := by
    cases event with
    | send bytes => exact ⟨_, rfl⟩
    | receive i position listed delivered =>
        unfold step
        dsimp only
        split
        · rcases sent_receive i position listed delivered with hnone | ⟨_, _, _, _, hsome⟩
          · exact ⟨[], by rw [List.append_nil, hnone]⟩
          · exact ⟨_, hsome⟩
        · exact ⟨[], (List.append_nil _).symm⟩
    | receiveError i => exact ⟨[], (List.append_nil _).symm⟩
    | bind i bound | cancel i =>
        refine ⟨[], ?_⟩
        rw [List.append_nil]
        unfold step
        dsimp only
        split <;> rfl
  obtain ⟨more, hmore⟩ := hsent
  cases later with
  | receive i position listed delivered =>
      change foreignAt ⟨(segment.step fields codec servers event).sent, _⟩ position = true
      rw [hmore]
      exact foreignAt_append hhears more _
  | send bytes | bind i bound | receiveError i | cancel i => cases hhears

/-- No reply storm.  Over every history of a segment, each reply answers an earlier
datagram of somebody else that is a boot request of a PXE client, and the listeners
send at most as many replies as they received such datagrams. -/
theorem run_no_storm (fields : BoundedFields) (codec : MessageCodec)
    (servers : ι → ProxyDhcpServer) (events : List (SegmentEvent ι)) :
    Answered fields codec servers (run fields codec servers events).sent ∧
      (run fields codec servers events).sent.countP (fun datagram => !datagram.isForeign) ≤
        events.countP (SegmentEvent.hears (run fields codec servers events)) := by
  refine ⟨answered_run events, ?_⟩
  induction events using List.reverseRecOn with
  | nil => exact Nat.le_refl 0
  | append_singleton events event ih =>
      have hmono : events.countP (SegmentEvent.hears (run fields codec servers events)) ≤
          events.countP (SegmentEvent.hears (run fields codec servers (events ++ [event]))) := by
        apply List.countP_mono_left
        intro other _ hhears
        rw [run_snoc]
        exact hears_step _ event other hhears
      rw [List.countP_append]
      rcases sent_step (answered_run events) event with hsame | ⟨bytes, hforeign⟩ |
        ⟨i, position, asked, reply, -, -, hhears, hreply⟩
      · rw [run_snoc, hsame, ← run_snoc]
        omega
      · rw [run_snoc, hforeign, ← run_snoc, List.countP_append]
        have hnone : [Datagram.mk (ι := ι) .foreign bytes].countP
            (fun datagram => !datagram.isForeign) = 0 := rfl
        omega
      · rw [run_snoc, hreply, ← run_snoc, List.countP_append]
        have hone : [Datagram.mk (.proxy i) reply].countP
            (fun datagram => !datagram.isForeign) = 1 := rfl
        have hheard : [event].countP
            (SegmentEvent.hears (run fields codec servers (events ++ [event]))) = 1 := by
          rw [run_snoc, List.countP_singleton, if_pos (hears_step _ event event hhears)]
        omega

end Segment

namespace Segment.SegmentWitness

open ProxyDhcpServer.GateWitness

def be16 (n : Nat) : List UInt8 := [UInt8.ofNat (n / 256), UInt8.ofNat n]

def be32 (n : Nat) : List UInt8 := be16 (n / 65536) ++ be16 n

def readNat (bytes : List UInt8) : Nat := bytes.foldl (fun n b => n * 256 + b.toNat) 0

def octets (addr : Ipv4Addr) : List UInt8 :=
  [addr.octets.1, addr.octets.2.1, addr.octets.2.2.1, addr.octets.2.2.2]

def opcodeByte : Opcode → UInt8
  | .bootRequest => 1
  | .bootReply => 2
  | .unknown code => code

def readOpcode (byte : UInt8) : Opcode :=
  if byte = 1 then .bootRequest else if byte = 2 then .bootReply else .unknown byte

def typeByte : MessageType → UInt8
  | .discover => 1
  | .offer => 2
  | .request => 3
  | .other code => code

def readType (byte : UInt8) : MessageType :=
  if byte = 1 then .discover else if byte = 2 then .offer else if byte = 3 then .request
  else .other byte

def optionCode : DhcpOption → UInt8
  | .messageType _ => 53
  | .serverIdentifier _ => 54
  | .classIdentifier _ => 60
  | .vendorExtensions _ => 43
  | .addressLeaseTime _ => 51
  | .other code _ => code

def optionData : DhcpOption → List UInt8
  | .messageType value => [typeByte value]
  | .serverIdentifier addr => octets addr
  | .classIdentifier bytes | .vendorExtensions bytes | .other _ bytes => bytes
  | .addressLeaseTime seconds => be32 seconds.toNat

def readOption (code : UInt8) (data : List UInt8) : DhcpOption :=
  if code = 53 then .messageType (readType (data.getD 0 0))
  else if code = 54 then
    .serverIdentifier ⟨data.getD 0 0, data.getD 1 0, data.getD 2 0, data.getD 3 0⟩
  else if code = 60 then .classIdentifier data
  else if code = 43 then .vendorExtensions data
  else if code = 51 then .addressLeaseTime (UInt32.ofNat (readNat data))
  else .other code data

def cookie : List UInt8 := [99, 130, 83, 99]

/-- The fields up to the cookie have fixed places. -/
def header (message : Message) : List UInt8 :=
  [opcodeByte message.opcode, message.htype, message.hlen, message.hops] ++
    be32 message.xid.toNat ++ be16 message.secs.toNat ++ be16 message.flags.toNat ++
    octets message.ciaddr ++ octets message.yiaddr ++ octets message.siaddr ++
    octets message.giaddr ++ message.chaddr.toList ++ List.replicate 64 0 ++
    (message.fname.getD []).take 128 ++
    List.replicate (128 - (message.fname.getD []).length) 0

/-- Options of more than 255 bytes are left to the long form, which no message here
needs. -/
def encodeMessage (message : Message) : Option (List UInt8) :=
  if message.opts.entries.all (fun option => (optionData option).length ≤ 255) then
    some (header message ++ cookie ++
      message.opts.entries.flatMap (fun option =>
        optionCode option :: UInt8.ofNat (optionData option).length :: optionData option) ++
      [255])
  else none

def readOptions : Nat → List UInt8 → DhcpOptions → Option DhcpOptions
  | fuel + 1, code :: rest, options =>
      if code = 255 then some options
      else if code = 0 then readOptions fuel rest options
      else match rest with
        | size :: rest =>
            if size.toNat ≤ rest.length then
              readOptions fuel (rest.drop size.toNat)
                (options.insert (readOption code (rest.take size.toNat)))
            else none
        | [] => none
  | _, _, options => some options

def addrAt (bytes : List UInt8) (place : Nat) : Ipv4Addr :=
  ⟨bytes.getD place 0, bytes.getD (place + 1) 0, bytes.getD (place + 2) 0,
    bytes.getD (place + 3) 0⟩

def natAt (bytes : List UInt8) (place size : Nat) : Nat := readNat ((bytes.drop place).take size)

def decodeMessage (bytes : List UInt8) : Option Message :=
  if bytes.length < 240 ∨ (bytes.drop 236).take 4 ≠ cookie then none
  else (readOptions bytes.length (bytes.drop 240) .empty).map fun options =>
    { opcode := readOpcode (bytes.getD 0 0)
      htype := bytes.getD 1 0
      hlen := bytes.getD 2 0
      hops := bytes.getD 3 0
      xid := UInt32.ofNat (natAt bytes 4 4)
      secs := UInt16.ofNat (natAt bytes 8 2)
      flags := UInt16.ofNat (natAt bytes 10 2)
      ciaddr := addrAt bytes 12
      yiaddr := addrAt bytes 16
      siaddr := addrAt bytes 20
      giaddr := addrAt bytes 24
      chaddr := Vector.ofFn fun i => bytes.getD (28 + i) 0
      fname :=
        if bytes.getD 108 0 = 0 then none
        else some (((bytes.drop 108).take 128).takeWhile (· != 0))
      opts := options }

theorem encodeMessage_eq_some {message : Message} {bytes : List UInt8}
    (hencode : encodeMessage message = some bytes) :
    ∃ rest, bytes = opcodeByte message.opcode :: rest := by
  unfold encodeMessage at hencode
  split at hencode
  next => exact ⟨_, (Option.some.inj hencode).symm⟩
  next => cases hencode

theorem opcode_of_decodeMessage {bytes : List UInt8} {read : Message}
    (hread : decodeMessage bytes = some read) :
    bytes ≠ [] ∧ read.opcode = readOpcode (bytes.getD 0 0) := by
  unfold decodeMessage at hread
  split at hread
  next => cases hread
  next hlong =>
    obtain ⟨options, -, rfl⟩ := Option.map_eq_some_iff.mp hread
    refine ⟨?_, rfl⟩
    rintro rfl
    exact hlong (Or.inl (by decide))

/-- Messages as they stand in a datagram. -/
def bootp : MessageCodec where
  decode := decodeMessage
  encode := encodeMessage
  reply_kept := by
    intro reply bytes hopcode hencode count read hread
    obtain ⟨rest, rfl⟩ := encodeMessage_eq_some hencode
    obtain ⟨hnonempty, hkept⟩ := opcode_of_decodeMessage hread
    cases count with
    | zero => exact absurd rfl hnonempty
    | succ count =>
        rw [hkept, hopcode]
        rfl

def discover : List UInt8 :=
  (encodeMessage (message .discover "PXEClient:Arch:00000".toList)).getD []

def offer : List UInt8 :=
  match server.answer fields bootp none discover with
  | .ok reply => reply.getD []
  | .error _ => []

/-- Two listeners hear a discover and then the reply of one of them. -/
def echoed : List (SegmentEvent Bool) :=
  [.bind true true, .bind false true, .send discover, .receive true 0 none true,
    .receive false 1 none true, .receive true 1 none true]

/-- The reply goes out once and is not answered. -/
theorem echo_ends :
    discover.length = 266 ∧ offer.length = 267 ∧
      (run fields bootp (fun _ => server) echoed).sent =
        [⟨.foreign, discover⟩, ⟨.proxy true, offer⟩] ∧
      Answered fields bootp (fun _ : Bool => server)
        [⟨.foreign, discover⟩, ⟨.proxy true, offer⟩] := by
  have hsent : (run fields bootp (fun _ => server) echoed).sent =
      [⟨.foreign, discover⟩, ⟨.proxy true, offer⟩] := by decide +kernel
  have hanswered := (run_no_storm fields bootp (fun _ => server) echoed).1
  rw [hsent] at hanswered
  exact ⟨by decide +kernel, by decide +kernel, hsent, hanswered⟩

end Segment.SegmentWitness

end PiCluster
