/-
A TFTP session as a two-party protocol: the server's transfer loop, a client
that follows the protocol, and a network that loses, duplicates and reorders
packets.  Every packet in flight remembers how many blocks had been
acknowledged when it was sent.
-/
import PiCluster.Lib.StepRun
import PiCluster.Tftp

namespace PiCluster

namespace Tftp

open Text Bytes

abbrev Packet := List UInt8

/-- Where the server's session stands: `sending` waits for the acknowledgement
of the block it has read and sent, after `retries` timeouts. -/
inductive Server where
  | awaitingAck0
  | sending (blockNum : UInt16) (offset : Nat) (data : List UInt8) (retries : Nat)
  | complete
  | aborted
deriving DecidableEq, Repr

namespace Session

/-- The head of the transfer loop.  `File::read` fills the buffer except at the
end of the file. -/
def readBlock (session : Session) (blockNum : UInt16) (offset : Nat) :
    Server × List Packet :=
  let data := (session.content.drop offset).take session.blockSize
  (.sending blockNum (offset + data.length) data 0, [buildDataPacket blockNum data])

def start (session : Session) : Server × List Packet :=
  match session.oack with
  | some oack => (.awaitingAck0, [oack])
  | none => session.readBlock 1 0

/-- A datagram arrives while the server waits. -/
def receive (session : Session) (server : Server) (packet : Packet) :
    Server × List Packet :=
  match server with
  | .awaitingAck0 =>
      if isAckOf 0 packet then session.readBlock 1 0 else (server, [])
  | .sending blockNum offset data _ =>
      if isAckOf blockNum packet then
        -- the final packet is shorter than a block
        if data.length < session.blockSize then (.complete, [])
        else session.readBlock (blockNum + 1) offset
      else (server, [])
  | _ => (server, [])

/-- The wait ends without the expected acknowledgement. -/
def timeout (server : Server) : Server × List Packet :=
  match server with
  | .awaitingAck0 => (.aborted, [])
  | .sending blockNum offset data retries =>
      if retries + 1 < maxRetries then
        (.sending blockNum offset data (retries + 1), [buildDataPacket blockNum data])
      else (.aborted, [])
  | _ => (server, [])

end Session

/-- The blocks a datagram acknowledges at the server. -/
def ackedBlocks (server : Server) (packet : Packet) : Nat :=
  match server with
  | .sending blockNum _ _ _ => if isAckOf blockNum packet then 1 else 0
  | _ => 0

def ackPacket (block : UInt16) : Packet := toBeBytes opAck ++ toBeBytes block

/-- The block size an option acknowledgement announces. -/
def announcedBlockSize (oack : Packet) : Nat :=
  ((optionGet (optionPairs id (nulFields (oack.drop 2))) blksizeKey).bind
    (parseUnsigned usizeBound)).getD defaultBlockSize

/-- A protocol client: `answered` once the server's first packet was taken,
`count` blocks stored. -/
structure Client where
  blockSize : Nat
  answered : Bool
  count : Nat
  stored : List UInt8
  finished : Bool
deriving DecidableEq, Repr

namespace Client

def initial : Client := ⟨defaultBlockSize, false, 0, [], false⟩

/-- Acknowledge the previous block again. -/
def reAck (client : Client) : List Packet :=
  if client.answered then [ackPacket (.ofNat client.count)] else []

def store (client : Client) (data : List UInt8) : Client where
  blockSize := client.blockSize
  answered := true
  count := client.count + 1
  stored := client.stored ++ data
  finished := data.length < client.blockSize

def receive (client : Client) (packet : Packet) : Client × List Packet :=
  match packet with
  | op1 :: op0 :: rest =>
      if fromBeBytes op1 op0 = opOack then
        if client.answered then (client, client.reAck)
        else ({ client with
          blockSize := announcedBlockSize packet, answered := true }, [ackPacket 0])
      else if fromBeBytes op1 op0 = opData then
        match rest with
        | block1 :: block0 :: data =>
            if client.finished = false ∧
                fromBeBytes block1 block0 = .ofNat (client.count + 1) then
              (client.store data, [ackPacket (.ofNat (client.count + 1))])
            else (client, client.reAck)
        | _ => (client, [])
      else (client, [])
  | _ => (client, [])

end Client

inductive Party where
  | server
  | client
deriving DecidableEq, Repr

structure Datagram where
  dest : Party
  bytes : Packet
  sentAt : Nat
deriving DecidableEq, Repr

/-- Both parties and the network between them. -/
structure Link where
  server : Server
  client : Client
  inFlight : List Datagram
  acked : Nat
deriving DecidableEq, Repr

inductive NetEvent where
  | deliver (index : Nat)
  | lose (index : Nat)
  | duplicate (index : Nat)
  | serverTimeout
  | serverFault
  | clientTimeout
deriving DecidableEq, Repr

namespace Link

def send (dest : Party) (sentAt : Nat) (packets : List Packet) : List Datagram :=
  packets.map fun packet => ⟨dest, packet, sentAt⟩

def initial (session : Session) : Link where
  server := session.start.1
  client := .initial
  inFlight := send .client 0 session.start.2
  acked := 0

def deliverServer (session : Session) (link : Link) (packet : Packet) : Link :=
  let result := session.receive link.server packet
  let acked := link.acked + ackedBlocks link.server packet
  { link with
    server := result.1
    inFlight := link.inFlight ++ send .client acked result.2
    acked := acked }

def deliverClient (link : Link) (packet : Packet) : Link :=
  let result := link.client.receive packet
  { link with
    client := result.1
    inFlight := link.inFlight ++ send .server link.acked result.2 }

def timeoutServer (link : Link) : Link :=
  let result := Session.timeout link.server
  { link with
    server := result.1
    inFlight := link.inFlight ++ send .client link.acked result.2 }

/-- A socket or file error leaves the session with an error. -/
def faultServer (link : Link) : Link :=
  if link.server = .complete then link else { link with server := .aborted }

def timeoutClient (link : Link) : Link :=
  { link with inFlight := link.inFlight ++ send .server link.acked link.client.reAck }

def step (session : Session) (link : Link) : NetEvent → Link
  | .deliver index =>
      match link.inFlight[index]? with
      | none => link
      | some datagram =>
          let rest := { link with inFlight := link.inFlight.eraseIdx index }
          match datagram.dest with
          | .server => deliverServer session rest datagram.bytes
          | .client => deliverClient rest datagram.bytes
  | .lose index => { link with inFlight := link.inFlight.eraseIdx index }
  | .duplicate index =>
      { link with inFlight := link.inFlight ++ link.inFlight[index]?.toList }
  | .serverTimeout => timeoutServer link
  | .serverFault => faultServer link
  | .clientTimeout => timeoutClient link

/-- No packet is still in flight after 65535 further blocks. -/
def Timely (link : Link) (_event : NetEvent) : Prop :=
  ∀ datagram ∈ link.inFlight, link.acked < datagram.sentAt + 65535

instance (link : Link) (event : NetEvent) : Decidable (Timely link event) :=
  inferInstanceAs (Decidable (∀ datagram ∈ link.inFlight, _))

def run (session : Session) (events : List NetEvent) : Link :=
  events.foldl (step session) (initial session)

end Link

end Tftp

end PiCluster
