import RingTape.Network.Peers

/-!
# First success in an order of transports

Dialling an order asks one kind after the other, each in the world that the one before
it has left, and stops at the first that connects.  `Refused` says that the kinds of a
list were dialled in this way and that none connected: it carries the error of each
kind's own dial and the world that the last of them leaves.

What comes of an order is decided by how far its kinds are refused.  Kinds that are
refused are passed over (`dialFirst_append`), the first other kind is the answer
(`dialFirst_reached`), and nothing after it is looked at.  If there is no other kind, all
were refused and all are reported (`dialFirst_exhausted`); every order is of one of these
two sorts (`refused_or_reached`).
-/

namespace RingTape

/-- What is reported of an order in which no kind connected. -/
structure Exhausted where
  /-- The text of the endpoint. -/
  endpoint : String
  /-- The kinds that were tried, in order, each with its error. -/
  attempts : List (Transport × DialError)
deriving DecidableEq, Repr

/-- The answer to whoever has dialled: the connection, or why there is none. -/
def Dialled.answer {Link : Type} (d : Dialled Link) : Except Exhausted (Connection Link) :=
  match d.reached with
  | some connection => .ok connection
  | none => .error ⟨d.endpoint.text, d.failures⟩

variable {World Link : Type}

/-- A kind's own dial gives a connection of that kind to the endpoint. -/
theorem Transport.dial_ok {net : Network World Link} {kind : Transport} {endpoint : Endpoint}
    {options : DialOptions} {world next : World} {connection : Connection Link}
    (h : kind.dial net endpoint options world = (.ok connection, next)) :
    connection.kind = kind ∧ connection.peer = endpoint.text := by
  unfold dial at h
  split at h
  · cases h
  · split at h
    · cases h
    · split at h
      · cases h
      · cases h
        exact ⟨rfl, rfl⟩

/-- **The kinds of a list are refused**: each is dialled in the world that the one before it
left, and none connects. -/
inductive Refused (net : Network World Link) (endpoint : Endpoint) (options : DialOptions) :
    List Transport → World → List (Transport × DialError) → World → Prop where
  /-- Nothing is dialled. -/
  | nil (world : World) : Refused net endpoint options [] world [] world
  /-- A kind does not connect, and those after it are refused. -/
  | cons {kind : Transport} {rest : List Transport} {world next last : World} {e : DialError}
      {attempts : List (Transport × DialError)}
      (hdial : kind.dial net endpoint options world = (.error e, next))
      (hrest : Refused net endpoint options rest next attempts last) :
      Refused net endpoint options (kind :: rest) world ((kind, e) :: attempts) last

section Orders

variable {net : Network World Link} {endpoint : Endpoint} {options : DialOptions}
variable {order before : List Transport} {kind : Transport} {connection : Connection Link}
variable {attempts : List (Transport × DialError)} {world next last : World}

/-- One attempt for each kind, in order. -/
theorem Refused.kinds (h : Refused net endpoint options order world attempts last) :
    attempts.map Prod.fst = order := by
  induction h with
  | nil => rfl
  | cons _ _ ih => rw [List.map_cons, ih]

/-- Kinds that are refused are passed over, and their errors kept. -/
theorem dialFirst_append (h : Refused net endpoint options before world attempts next)
    (rest : List Transport) :
    dialFirst net endpoint options (before ++ rest) world =
      (let later := dialFirst net endpoint options rest next
       ({ later.1 with failures := attempts ++ later.1.failures }, later.2)) := by
  induction h with
  | nil => rfl
  | cons hdial _ ih =>
    rw [List.cons_append, dialFirst, hdial]
    dsimp only
    rw [ih, List.cons_append]

/-- **The first kind that is not refused is the answer**, whatever comes after it. -/
theorem dialFirst_reached (h : Refused net endpoint options before world attempts next)
    (hdial : kind.dial net endpoint options next = (.ok connection, last))
    (later : List Transport) :
    dialFirst net endpoint options (before ++ kind :: later) world =
      (⟨endpoint, attempts, some connection⟩, last) := by
  have hkind : dialFirst net endpoint options (kind :: later) next =
      (⟨endpoint, [], some connection⟩, last) := by
    rw [dialFirst, hdial]
  rw [dialFirst_append h, hkind]
  simp

/-- **An order in which all kinds are refused** reports them all. -/
theorem dialFirst_exhausted (h : Refused net endpoint options order world attempts last) :
    dialFirst net endpoint options order world = (⟨endpoint, attempts, none⟩, last) := by
  have hall := dialFirst_append h []
  rw [List.append_nil, dialFirst] at hall
  rw [hall]
  simp

variable (net endpoint options order world)

/-- **Either all kinds of an order are refused, or there is a first that is not.** -/
theorem refused_or_reached :
    (∃ attempts last, Refused net endpoint options order world attempts last) ∨
      ∃ before kind later attempts next connection last, order = before ++ kind :: later ∧
        Refused net endpoint options before world attempts next ∧
        kind.dial net endpoint options next = (.ok connection, last) := by
  induction order generalizing world with
  | nil => exact Or.inl ⟨[], world, .nil world⟩
  | cons kind rest ih =>
    rcases hdial : kind.dial net endpoint options world with ⟨e | connection, next⟩
    · rcases ih next with ⟨attempts, last, hrest⟩ |
        ⟨before, first, later, attempts, reached, connection, last, rfl, hbefore, hfirst⟩
      · exact Or.inl ⟨_, last, .cons hdial hrest⟩
      · exact Or.inr ⟨kind :: before, first, later, _, reached, connection, last, rfl,
          .cons hdial hbefore, hfirst⟩
    · exact Or.inr ⟨[], kind, rest, [], world, connection, next, rfl, .nil world, hdial⟩

/-- **First success.**  Dialling an order gives a connection exactly if, after kinds that
are refused one by one, some kind of the order connects.  Then the connection is what this
kind's own dial gave, it is of this kind and goes to the endpoint, the world is the one
that this dial left, and any other kinds in the place of the later ones would have made no
difference.  Otherwise the answer names the endpoint, and for every kind of the order,
in order, the error that its own dial gave. -/
theorem dialling_first_success :
    let outcome := (dialFirst net endpoint options order world).1
    let final := (dialFirst net endpoint options order world).2
    (∀ connection, outcome.answer = .ok connection ↔
      ∃ before kind later attempts next, order = before ++ kind :: later ∧
        Refused net endpoint options before world attempts next ∧
        kind.dial net endpoint options next = (.ok connection, final)) ∧
    (∀ before kind later attempts next connection last, order = before ++ kind :: later →
      Refused net endpoint options before world attempts next →
      kind.dial net endpoint options next = (.ok connection, last) →
      outcome.answer = .ok connection ∧ final = last ∧
        connection.kind = kind ∧ connection.peer = endpoint.text ∧
        ∀ others, dialFirst net endpoint options (before ++ kind :: others) world =
          (outcome, final)) ∧
    (∀ report, outcome.answer = .error report ↔ report.endpoint = endpoint.text ∧
      Refused net endpoint options order world report.attempts final) ∧
    ∀ report, outcome.answer = .error report → report.attempts.map Prod.fst = order := by
  intro outcome final
  have hsuccess {before kind later attempts next connection last}
      (horder : order = before ++ kind :: later)
      (hbefore : Refused net endpoint options before world attempts next)
      (hdial : kind.dial net endpoint options next = (.ok connection, last)) :
      outcome = ⟨endpoint, attempts, some connection⟩ ∧ final = last := by
    have hall := dialFirst_reached hbefore hdial later
    rw [← horder] at hall
    exact ⟨congrArg Prod.fst hall, congrArg Prod.snd hall⟩
  have hfailure {attempts last} (h : Refused net endpoint options order world attempts last) :
      outcome = ⟨endpoint, attempts, none⟩ ∧ final = last :=
    ⟨congrArg Prod.fst (dialFirst_exhausted h), congrArg Prod.snd (dialFirst_exhausted h)⟩
  have hreport (report : Exhausted) : outcome.answer = .error report ↔
      report.endpoint = endpoint.text ∧
        Refused net endpoint options order world report.attempts final := by
    constructor
    · intro hanswer
      rcases refused_or_reached net endpoint options order world with ⟨attempts, last, hall⟩ |
        ⟨before, kind, later, attempts, next, connection, last, horder, hbefore, hdial⟩
      · obtain ⟨houtcome, hfinal⟩ := hfailure hall
        rw [houtcome] at hanswer
        cases hanswer
        exact ⟨rfl, hfinal ▸ hall⟩
      · rw [(hsuccess horder hbefore hdial).1] at hanswer
        cases hanswer
    · rintro ⟨htext, hall⟩
      rw [(hfailure hall).1, Dialled.answer, ← htext]
  refine ⟨fun connection => ⟨fun hanswer => ?_, ?_⟩, ?_, hreport, ?_⟩
  · rcases refused_or_reached net endpoint options order world with ⟨attempts, last, hall⟩ |
      ⟨before, kind, later, attempts, next, found, last, horder, hbefore, hdial⟩
    · rw [(hfailure hall).1] at hanswer
      cases hanswer
    · obtain ⟨houtcome, hfinal⟩ := hsuccess horder hbefore hdial
      rw [houtcome] at hanswer
      cases hanswer
      exact ⟨before, kind, later, attempts, next, horder, hbefore, hfinal ▸ hdial⟩
  · rintro ⟨before, kind, later, attempts, next, horder, hbefore, hdial⟩
    rw [(hsuccess horder hbefore hdial).1]
    rfl
  · intro before kind later attempts next connection last horder hbefore hdial
    obtain ⟨houtcome, hfinal⟩ := hsuccess horder hbefore hdial
    obtain ⟨hkind, hpeer⟩ := Transport.dial_ok hdial
    refine ⟨by rw [houtcome]; rfl, hfinal, hkind, hpeer, fun others => ?_⟩
    rw [houtcome, hfinal]
    exact dialFirst_reached hbefore hdial others
  · intro report hanswer
    exact ((hreport report).mp hanswer).2.kinds

end Orders

/-- An endpoint. -/
def harbour : Endpoint :=
  .ofCells 10 0 0 1 8 0

/-- An isolated world with a local stream peer at that endpoint. -/
def harbourWorld : PeerWorld :=
  .ofPeers .isolated [⟨.unix, harbour, [], false, false⟩]

theorem dial_harbour_tcp : Transport.tcp.dial PeerWorld.network harbour {} harbourWorld =
    (.error (.refused .tcp .networkUnreachable), harbourWorld) := rfl

/-- After two kinds that do not connect the third is the answer, and without it a kind that
is named twice is tried and reported twice. -/
theorem dialling_first_success_harbour :
    (dialFirst PeerWorld.network harbour {} [.tcp, .unixgram, .unix, .unix] harbourWorld).1.answer =
        .ok ⟨.unix, harbour.text, 0⟩ ∧
      (dialFirst PeerWorld.network harbour {} [.tcp, .tcp] harbourWorld).1.answer =
        .error ⟨harbour.text, [(.tcp, .refused .tcp .networkUnreachable),
          (.tcp, .refused .tcp .networkUnreachable)]⟩ := by
  have hbefore : Refused PeerWorld.network harbour {} [.tcp, .unixgram] harbourWorld
      [(.tcp, .refused .tcp .networkUnreachable), (.unixgram, .refused .unixgram .wrongSocketType)]
      harbourWorld := .cons dial_harbour_tcp (.cons rfl (.nil _))
  have htwice : Refused PeerWorld.network harbour {} [.tcp, .tcp] harbourWorld
      [(.tcp, .refused .tcp .networkUnreachable), (.tcp, .refused .tcp .networkUnreachable)]
      harbourWorld := .cons dial_harbour_tcp (.cons dial_harbour_tcp (.nil _))
  obtain ⟨-, hsuccess, -, -⟩ := dialling_first_success PeerWorld.network harbour {}
    [.tcp, .unixgram, .unix, .unix] harbourWorld
  obtain ⟨-, -, hreport, -⟩ := dialling_first_success PeerWorld.network harbour {}
    [.tcp, .tcp] harbourWorld
  refine ⟨(hsuccess _ .unix [.unix] _ _ _ _ rfl hbefore rfl).1, (hreport _).mpr ⟨rfl, ?_⟩⟩
  rw [dialFirst_exhausted htwice]
  exact htwice

end RingTape
