import RingTape.Fault
import RingTape.Network.Endpoint
import RingTape.Network.Transport

/-!
# Dialling

A network is known only by what it answers: whether a route can be connected, whether transfers on
a link can be bounded in time, and what happens to bytes on a link. Everything it remembers is in a
world that each request hands on. `Transport.dial` tries one kind of transport; `dialFirst` tries
the kinds of an order one after the other and stops at the first that connects, keeping the reason
of each failure before it.
-/

namespace RingTape

/-- A length of time. -/
structure Duration where
  /-- Its nanoseconds. -/
  nanos : Nat
deriving DecidableEq, Repr

/-- A number of milliseconds. -/
def Duration.ofMillis (millis : Nat) : Duration :=
  ⟨millis * 1000000⟩

/-- Limits on connecting and on transfers. -/
structure DialOptions where
  /-- The longest time for connecting, if there is a bound. -/
  connectTimeout : Option Duration := none
  /-- The longest time for a transfer, if there is a bound. -/
  transferTimeout : Option Duration := none
deriving DecidableEq, Repr

/-- What a network is asked to connect to. -/
inductive Route where
  /-- A stream to a port, to be connected in a bounded time if a bound is given. -/
  | stream (host : HostAddress) (port : Nat) (timeout : Option Duration)
  /-- Datagrams to a port. -/
  | datagram (host : HostAddress) (port : Nat)
  /-- Packets of a protocol. -/
  | packets (host : HostAddress) (protocol : Nat) (timeout : Option Duration)
  /-- A socket in the file system, of one of the local kinds. -/
  | socket (kind : Transport) (path : String)
deriving DecidableEq, Repr

/-- A network, by its answers. -/
structure Network (World Link : Type) where
  /-- Connects a route. -/
  connect : Route → World → Except Fault Link × World
  /-- Bounds the time of receiving from a link, or lifts the bound. -/
  boundReceiving : Link → Option Duration → World → Except Fault Unit × World
  /-- Bounds the time of sending over a link, or lifts the bound. -/
  boundSending : Link → Option Duration → World → Except Fault Unit × World
  /-- Sends a byte over a link. -/
  send : Link → UInt8 → World → Except Fault Unit × World
  /-- Receives a byte from a link; nothing means that the other side has ended the stream. -/
  receive : Link → World → Except Fault (Option UInt8) × World
  /-- Shuts a link down and gives it up; the fault of a failed shutdown is reported. -/
  close : Link → World → Option Fault × World
  /-- Gives a link up without shutting it down. -/
  release : Link → World → World

/-- Bounds the time of transfers on a link: first of receiving, then of sending. -/
def Network.boundTransfers {World Link : Type} (net : Network World Link) (link : Link)
    (timeout : Option Duration) (world : World) : Except Fault Unit × World :=
  match net.boundReceiving link timeout world with
  | (.error fault, world) => (.error fault, world)
  | (.ok (), world) => net.boundSending link timeout world

/-- An established connection. -/
structure Connection (Link : Type) where
  /-- The kind of transport that established it. -/
  kind : Transport
  /-- The text of the endpoint it was dialled to. -/
  peer : String
  /-- The link that carries the bytes. -/
  link : Link
deriving DecidableEq

/-- Why one kind of transport did not connect. -/
inductive DialError where
  /-- The port literal does not fit the kind. -/
  | literal (error : LiteralError)
  /-- The network refused. -/
  | refused (kind : Transport) (fault : Fault)
deriving DecidableEq, Repr

/-- The wording of a failed attempt. -/
def DialError.message : DialError → String
  | literal error => error.message
  | refused kind fault => kind.name ++ " dial failed: " ++ fault.message

namespace Transport

/-- The route of a kind to an endpoint. -/
def route (kind : Transport) (endpoint : Endpoint) (options : DialOptions) :
    Except LiteralError Route :=
  match kind with
  | tcp => endpoint.port.map fun port => .stream endpoint.host port options.connectTimeout
  | udp => endpoint.port.map fun port => .datagram endpoint.host port
  | raw => endpoint.protocol.map fun number =>
      .packets endpoint.host number options.connectTimeout
  | unix | unixgram | unixpacket => .ok (.socket kind endpoint.path)

variable {World Link : Type}

/-- **Dials one kind of transport.** A link on which transfers cannot be bounded as the options
want is given up again. -/
def dial (net : Network World Link) (kind : Transport) (endpoint : Endpoint)
    (options : DialOptions) (world : World) : Except DialError (Connection Link) × World :=
  match kind.route endpoint options with
  | .error e => (.error (.literal e), world)
  | .ok route =>
    match net.connect route world with
    | (.error fault, world) => (.error (.refused kind fault), world)
    | (.ok link, world) =>
      match net.boundTransfers link options.transferTimeout world with
      | (.error fault, world) => (.error (.refused kind fault), net.release link world)
      | (.ok (), world) => (.ok ⟨kind, endpoint.text, link⟩, world)

end Transport

/-- What dialling an order came to. -/
structure Dialled (Link : Type) where
  /-- The endpoint. -/
  endpoint : Endpoint
  /-- The attempts that failed, in order. -/
  failures : List (Transport × DialError)
  /-- The connection, if an attempt succeeded. -/
  reached : Option (Connection Link)

/-- The wording of an order without success. -/
def Dialled.message {Link : Type} (d : Dialled Link) : String :=
  "no transport reached " ++ d.endpoint.text ++ " (" ++ Nat.repr d.failures.length ++ " attempts)"

variable {World Link : Type}

/-- **First success.** Tries the kinds strictly in order and no kind after the first success. -/
def dialFirst (net : Network World Link) (endpoint : Endpoint) (options : DialOptions) :
    List Transport → World → Dialled Link × World
  | [], world => (⟨endpoint, [], none⟩, world)
  | kind :: rest, world =>
    match kind.dial net endpoint options world with
    | (.ok connection, world) => (⟨endpoint, [], some connection⟩, world)
    | (.error e, world) =>
      let (later, world) := dialFirst net endpoint options rest world
      ({ later with failures := (kind, e) :: later.failures }, world)

end RingTape
