import RingTape.Text.Basic

/-!
# Transport kinds

An endpoint does not say how it is to be reached. The six kinds of transport are tried in an
order that the user may give as a list of names: fields are separated by commas, blank fields are
skipped, and names are read without regard to surrounding blanks and ASCII case.
-/

namespace RingTape

/-- The ways of reaching an endpoint. -/
inductive Transport where
  /-- An IPv4 stream. -/
  | tcp
  /-- IPv4 datagrams. -/
  | udp
  /-- IPv4 packets of a protocol. -/
  | raw
  /-- A local stream socket. -/
  | unix
  /-- A local datagram socket. -/
  | unixgram
  /-- A local socket that keeps packets apart. -/
  | unixpacket
deriving DecidableEq, Repr

/-- A name that is no transport kind, as it was compared. -/
structure UnknownTransport where
  /-- The trimmed name in lower case. -/
  name : String
deriving DecidableEq, Repr

/-- The wording of an unknown kind. -/
def UnknownTransport.message (e : UnknownTransport) : String :=
  "unknown transport kind '" ++ e.name ++ "'"

namespace Transport

/-- The order that is used when none is given. -/
def defaultOrder : List Transport :=
  [tcp, udp, raw, unix, unixgram, unixpacket]

/-- The name of a kind. -/
def name : Transport → String
  | tcp => "tcp"
  | udp => "udp"
  | raw => "raw"
  | unix => "unix"
  | unixgram => "unixgram"
  | unixpacket => "unixpacket"

/-- Whether the kind takes the endpoint for a path in the file system. -/
def isLocal : Transport → Bool
  | unix | unixgram | unixpacket => true
  | tcp | udp | raw => false

/-- The kind with a given name in lower case. `ip` is another name of `raw`. -/
def ofName? (name : String) : Option Transport :=
  if name = "tcp" then some tcp
  else if name = "udp" then some udp
  else if name = "raw" then some raw
  else if name = "ip" then some raw
  else if name = "unix" then some unix
  else if name = "unixgram" then some unixgram
  else if name = "unixpacket" then some unixpacket
  else none

/-- Reads the name of a kind. -/
def parse (text : String) : Except UnknownTransport Transport :=
  let name := Text.lowered (Text.trimmed text)
  match ofName? name with
  | some kind => .ok kind
  | none => .error ⟨name⟩

/-- Reads the fields of a list in order; the first bad one decides the error. -/
def parseFields : List (List Char) → Except UnknownTransport (List Transport)
  | [] => .ok []
  | field :: rest =>
    if field.all Text.isBlank then parseFields rest
    else
      match parse (String.ofList field) with
      | .error e => .error e
      | .ok kind =>
        match parseFields rest with
        | .error e => .error e
        | .ok kinds => .ok (kind :: kinds)

/-- **Reads an order of transports**, keeping repetitions. -/
def parseOrder (text : String) : Except UnknownTransport (List Transport) :=
  parseFields (text.toList.splitOn ',')

/-- The name of a kind reads back as that kind. -/
@[simp]
theorem ofName?_name (kind : Transport) : ofName? kind.name = some kind := by
  cases kind <;> rfl

end Transport

end RingTape
