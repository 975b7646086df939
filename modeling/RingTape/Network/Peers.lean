import RingTape.Network.Dial

/-!
# A network of scripted peers

This network consists of peers that listen at endpoints and follow a script: what a peer sends is
fixed beforehand, what it receives is recorded, and time does not pass. A stream peer sends its
items one after the other and then ends the stream, or holds it open so that reading on fails; a
packet peer keeps its items apart; a datagram peer answers the datagrams it receives one by one; a
peer that hangs up loses what is sent to it and sends nothing.

Local sockets are reached by path. Whether the address families of IPv4 are usable at all is a
property of the place the network is in: on an isolated one there is no route to any address and
raw packets are not permitted, and on one with a loopback the addresses of this machine answer.
-/

namespace RingTape

/-- What of IPv4 can be used. -/
inductive Reach where
  /-- No address has a route, and raw packets are not permitted. -/
  | isolated
  /-- The addresses of this machine answer. -/
  | loopback
deriving DecidableEq, Repr

/-- A peer and its script. -/
structure Peer where
  /-- The kind of socket it listens on. -/
  kind : Transport
  /-- Where it listens. -/
  endpoint : Endpoint
  /-- The items it sends; a missing item is an answer that is left out. -/
  script : List (Option (List UInt8))
  /-- Whether it keeps the stream open after its last item. -/
  holds : Bool
  /-- Whether it hangs up as soon as it is connected. -/
  hangsUp : Bool

/-- The state of one link. -/
structure Session where
  /-- The kind of transport. -/
  kind : Transport
  /-- The place of the peer in the list of peers; a link may have none. -/
  peer : Option Nat
  /-- The packets to be read, in order. On a stream each is a single byte. -/
  incoming : List (List UInt8)
  /-- Whether reading past the last packet fails instead of ending the stream. -/
  staysOpen : Bool
  /-- The bytes that were sent over the link and not lost. -/
  sent : Array UInt8
  /-- Whether the link was closed on this side. -/
  closed : Bool

/-- The peers of a network and what has happened to them. -/
structure PeerWorld where
  /-- What of IPv4 can be used. -/
  reach : Reach
  /-- The peers. -/
  peers : Array Peer
  /-- The links in the order in which they were connected. -/
  sessions : Array Session
  /-- The datagrams received, each with the place of the peer that received it. -/
  datagrams : Array (Nat × UInt8)

/-- What a peer has seen of one connection. -/
structure ConnectionReport where
  /-- The bytes received. -/
  received : List UInt8
  /-- Whether this side has closed the connection. -/
  closed : Bool

/-- What a peer has seen. -/
inductive PeerReport where
  /-- The connections accepted, in order. -/
  | connections (hungUp : Bool) (reports : List ConnectionReport)
  /-- The datagrams received, in order. -/
  | datagrams (bytes : List UInt8)

namespace PeerWorld

/-- The world before anything happened. -/
def ofPeers (reach : Reach) (peers : List Peer) : PeerWorld :=
  { reach := reach, peers := peers.toArray, sessions := #[], datagrams := #[] }

/-- The longest path of a socket in bytes. -/
def pathMax : Nat := 107

/-- The first peer with a property, and its place. -/
def find? (w : PeerWorld) (p : Peer → Bool) : Option (Nat × Peer) :=
  w.peers.toList.zipIdx.findSome? fun (peer, place) => if p peer then some (place, peer) else none

/-- What a new link to a peer will read. Stream peers send bytes and packet peers send packets;
datagram peers only answer. -/
def openingPackets (peer : Peer) : List (List UInt8) :=
  if peer.hangsUp then []
  else
    match peer.kind with
    | .tcp | .unix => (peer.script.flatMap fun item => item.getD []).map fun byte => [byte]
    | .unixpacket => peer.script.filterMap id
    | .udp | .unixgram | .raw => []

/-- Adds a link. -/
def addSession (w : PeerWorld) (session : Session) : Except Fault Nat × PeerWorld :=
  (.ok w.sessions.size, { w with sessions := w.sessions.push session })

/-- Connects to the peer at a place. -/
def accept (w : PeerWorld) (place : Nat) (peer : Peer) : Except Fault Nat × PeerWorld :=
  w.addSession
    { kind := peer.kind
      peer := some place
      incoming := openingPackets peer
      staysOpen := match peer.kind with
        | .tcp | .unix | .unixpacket => peer.holds && !peer.hangsUp
        | .udp | .unixgram | .raw => true
      sent := #[]
      closed := false }

/-- Adds a link that has no peer and on which nothing arrives unless it is sent back. -/
def addPeerless (w : PeerWorld) (kind : Transport) : Except Fault Nat × PeerWorld :=
  w.addSession
    { kind := kind, peer := none, incoming := [], staysOpen := true, sent := #[], closed := false }

/-- Whether a peer of a given kind listens at an address and port. -/
def listensAt (kind : Transport) (host : HostAddress) (port : Nat) (peer : Peer) : Bool :=
  peer.kind == kind && peer.endpoint.host == host &&
    (match peer.endpoint.port with
      | .ok n => n == port
      | .error _ => false)

/-- Connects a stream. A route that exists cannot be connected in no time at all. -/
def connectStream (w : PeerWorld) (host : HostAddress) (port : Nat) (timeout : Option Duration) :
    Except Fault Nat × PeerWorld :=
  match w.reach with
  | .isolated => (.error .networkUnreachable, w)
  | .loopback =>
    if timeout = some ⟨0⟩ then (.error .zeroTimeout, w)
    else
      match w.find? (listensAt .tcp host port) with
      | none => (.error .connectionRefused, w)
      | some (place, peer) => w.accept place peer

/-- Connects datagrams, which needs a route and no listener. -/
def connectDatagram (w : PeerWorld) (host : HostAddress) (port : Nat) :
    Except Fault Nat × PeerWorld :=
  match w.reach with
  | .isolated => (.error .networkUnreachable, w)
  | .loopback =>
    if host.isLoopback then
      match w.find? (listensAt .udp host port) with
      | none => w.addPeerless .udp
      | some (place, peer) => w.accept place peer
    else (.error .networkUnreachable, w)

/-- Connects packets of a protocol. There is no protocol with the number zero. -/
def connectPackets (w : PeerWorld) (host : HostAddress) (protocol : Nat) :
    Except Fault Nat × PeerWorld :=
  if protocol = 0 then (.error .protocolNotSupported, w)
  else
    match w.reach with
    | .isolated => (.error .notPermitted, w)
    | .loopback =>
      if host.isLoopback then w.addPeerless .raw else (.error .networkUnreachable, w)

/-- Connects a socket in the file system. A path exists only if a peer listens there, and the
peer must be of the same kind. -/
def connectSocket (w : PeerWorld) (kind : Transport) (path : String) :
    Except Fault Nat × PeerWorld :=
  if pathMax < path.utf8ByteSize then (.error .pathTooLong, w)
  else
    match w.find? fun peer => peer.kind.isLocal && peer.endpoint.path == path with
    | none => (.error .notFound, w)
    | some (place, peer) =>
      if peer.kind = kind then w.accept place peer else (.error .wrongSocketType, w)

/-- Connects a route. -/
def connect (route : Route) (w : PeerWorld) : Except Fault Nat × PeerWorld :=
  match route with
  | .stream host port timeout => w.connectStream host port timeout
  | .datagram host port => w.connectDatagram host port
  | .packets host protocol _ => w.connectPackets host protocol
  | .socket kind path => w.connectSocket kind path

/-- Whether links of a kind refuse a bound of no time at all. The others take it for no bound. -/
def refusesZeroTimeout : Transport → Bool
  | .tcp | .udp | .unix | .unixgram => true
  | .raw | .unixpacket => false

/-- Bounds the time of transfers on a link, in either direction. As time does not pass, the bound
is not kept. -/
def bound (link : Nat) (timeout : Option Duration) (w : PeerWorld) :
    Except Fault Unit × PeerWorld :=
  match w.sessions[link]? with
  | none => (.error .broken, w)
  | some session =>
    if timeout = some ⟨0⟩ ∧ refusesZeroTimeout session.kind then (.error .zeroTimeout, w)
    else (.ok (), w)

/-- Changes one link. -/
def updateSession (w : PeerWorld) (link : Nat) (f : Session → Session) : PeerWorld :=
  { w with sessions := w.sessions.modify link f }

/-- The datagrams that a peer has received so far. -/
def datagramsOf (w : PeerWorld) (place : Nat) : List UInt8 :=
  (w.datagrams.toList.filter fun d => d.1 == place).map fun d => d.2

/-- The first octet of every IPv4 packet without options. -/
def packetLead : UInt8 := 69

/-- Sends a byte. Sending always succeeds; what is sent to a peer that hung up is lost. -/
def send (link : Nat) (byte : UInt8) (w : PeerWorld) : Except Fault Unit × PeerWorld :=
  match w.sessions[link]? with
  | none => (.error .broken, w)
  | some session =>
    match session.kind with
    | .tcp | .unix | .unixpacket =>
      let lost := match session.peer.bind (w.peers[·]?) with
        | some peer => peer.hangsUp
        | none => true
      if lost then (.ok (), w)
      else (.ok (), w.updateSession link fun s => { s with sent := s.sent.push byte })
    | .raw =>
      (.ok (), w.updateSession link fun s => { s with incoming := s.incoming ++ [[packetLead]] })
    | .udp | .unixgram =>
      match session.peer with
      | none => (.ok (), w)
      | some place =>
        let answer := match session.kind, w.peers[place]? with
          | .udp, some peer => (peer.script[(w.datagramsOf place).length]?).getD none
          | _, _ => none
        let w := { w with datagrams := w.datagrams.push (place, byte) }
        match answer with
        | none => (.ok (), w)
        | some packet =>
          (.ok (), w.updateSession link fun s => { s with incoming := s.incoming ++ [packet] })

/-- Receives a byte: the first of the next packet. An empty packet reads as the end. -/
def receive (link : Nat) (w : PeerWorld) : Except Fault (Option UInt8) × PeerWorld :=
  match w.sessions[link]? with
  | none => (.error .broken, w)
  | some session =>
    match session.incoming with
    | [] => (if session.staysOpen then .error .unavailable else .ok none, w)
    | packet :: rest =>
      (.ok packet.head?, w.updateSession link fun s => { s with incoming := rest })

/-- Gives a link up, which its peer takes for the end. -/
def release (link : Nat) (w : PeerWorld) : PeerWorld :=
  w.updateSession link fun s => { s with closed := true }

/-- Closes a link. Shutting down never fails. -/
def close (link : Nat) (w : PeerWorld) : Option Fault × PeerWorld :=
  (none, w.release link)

/-- The network of scripted peers. Links are numbered in the order of connecting. -/
def network : Network PeerWorld Nat where
  connect := connect
  boundReceiving := bound
  boundSending := bound
  send := send
  receive := receive
  close := close
  release := release

/-- What the peer at a place has seen so far. -/
def report (w : PeerWorld) (place : Nat) (peer : Peer) : PeerReport :=
  match peer.kind with
  | .tcp | .unix | .unixpacket =>
    .connections peer.hangsUp
      ((w.sessions.toList.filter fun s => s.peer == some place).map fun s =>
        ⟨s.sent.toList, s.closed⟩)
  | .udp | .unixgram | .raw => .datagrams (w.datagramsOf place)

/-- What the peers have seen so far, in their order. -/
def reports (w : PeerWorld) : List PeerReport :=
  w.peers.toList.mapIdx w.report

end PeerWorld

end RingTape
