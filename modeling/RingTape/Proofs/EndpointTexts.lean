import RingTape.Proofs.DialOrder
import RingTape.Proofs.Numerals

/-!
# An endpoint is told by its text

The text of an endpoint is four numerals and a literal, and it can be taken apart again
although the literal may be any text, with points and colons of its own.  A numeral goes as
far as its digits go, so the first character that is no digit ends it (`numeral_ended_iff`);
what follows the fourth numeral and its colon is the literal, whatever it is.

So endpoints with the same text are the same.  Whoever dials one is told its text, be it as
the peer of the connection or as what could not be reached (`named_dialFirst`), and the
path of a local socket is the text, so none of this can come out alike for two endpoints.

Cells are another matter.  The numerals of the last two are written one after the other
with nothing between them, and different cells may give the same literal.
-/

namespace RingTape

/-- **A numeral ends where its digits end.** -/
theorem Text.numeral_ended_iff {m n : Nat} {stop : Char} (hstop : stop.isDigit = false)
    {rest others : List Char} :
    Nat.toDigits 10 m ++ stop :: rest = Nat.toDigits 10 n ++ stop :: others ↔
      m = n ∧ rest = others := by
  constructor
  · intro h
    have hpieces := congrArg (List.splitOn stop) h
    rw [List.splitOn_append_cons_self_of_not_mem (not_mem_toDigits hstop m),
      List.splitOn_append_cons_self_of_not_mem (not_mem_toDigits hstop n)] at hpieces
    have hdigits : Nat.toDigits 10 m = Nat.toDigits 10 n := (List.cons.inj hpieces).1
    rw [hdigits] at h
    refine ⟨?_, (List.cons.inj (List.append_cancel_left h)).2⟩
    rw [← (digits_toDigits m).value_eq, hdigits, (digits_toDigits n).value_eq]
  · rintro ⟨rfl, rfl⟩
    rfl

namespace Endpoint

open Text

/-- The text of an endpoint, character by character. -/
theorem toList_text (e : Endpoint) : e.text.toList =
    Nat.toDigits 10 e.host.a.toNat ++ '.' :: (Nat.toDigits 10 e.host.b.toNat ++
      '.' :: (Nat.toDigits 10 e.host.c.toNat ++ '.' :: (Nat.toDigits 10 e.host.d.toNat ++
        ':' :: e.literal.toList))) := by
  simp [text, HostAddress.text]

/-- **The text of an endpoint is its own.** -/
theorem text_eq_iff {e f : Endpoint} : e.text = f.text ↔ e = f := by
  constructor
  · intro h
    have hlists := congrArg String.toList h
    rw [toList_text, toList_text, numeral_ended_iff (by decide), numeral_ended_iff (by decide),
      numeral_ended_iff (by decide), numeral_ended_iff (by decide)] at hlists
    obtain ⟨ha, hb, hc, hd, hliteral⟩ := hlists
    obtain ⟨⟨a, b, c, d⟩, literal⟩ := e
    obtain ⟨⟨a', b', c', d'⟩, literal'⟩ := f
    obtain rfl := UInt8.toNat_inj.mp ha
    obtain rfl := UInt8.toNat_inj.mp hb
    obtain rfl := UInt8.toNat_inj.mp hc
    obtain rfl := UInt8.toNat_inj.mp hd
    obtain rfl := String.toList_inj.mp hliteral
    rfl
  · rintro rfl
    rfl

/-! ## What is told to whoever dials -/

variable {World Link : Type}

/-- The endpoint that an answer names: the peer, or what could not be reached. -/
def namedBy : Except Exhausted (Connection Link) → String
  | .ok connection => connection.peer
  | .error report => report.endpoint

/-- Whatever comes of an order, the answer names the endpoint. -/
theorem named_dialFirst (net : Network World Link) (e : Endpoint) (options : DialOptions)
    (order : List Transport) (world : World) :
    namedBy (dialFirst net e options order world).1.answer = e.text := by
  rcases refused_or_reached net e options order world with ⟨attempts, last, hall⟩ |
    ⟨before, kind, later, attempts, next, connection, last, rfl, hbefore, hdial⟩
  · rw [dialFirst_exhausted hall]
    rfl
  · rw [dialFirst_reached hbefore hdial]
    exact (Transport.dial_ok hdial).2

/-- **Endpoints that are dialled alike are the same.** -/
theorem dialFirst_alike_iff {e f : Endpoint} (net : Network World Link) (options : DialOptions)
    (order : List Transport) (world : World) :
    (dialFirst net e options order world).1.answer =
        (dialFirst net f options order world).1.answer ∧
      (dialFirst net e options order world).2 = (dialFirst net f options order world).2 ↔
    e = f := by
  constructor
  · rintro ⟨hanswer, -⟩
    have hnamed := congrArg namedBy hanswer
    rw [named_dialFirst, named_dialFirst] at hnamed
    exact text_eq_iff.mp hnamed
  · rintro rfl
    exact ⟨rfl, rfl⟩

theorem ofCells_eq_iff {a b c d high low a' b' c' d' high' low' : UInt8} :
    ofCells a b c d high low = ofCells a' b' c' d' high' low' ↔
      (a = a' ∧ b = b' ∧ c = c' ∧ d = d') ∧
        Nat.repr high.toNat ++ Nat.repr low.toNat =
          Nat.repr high'.toNat ++ Nat.repr low'.toNat := by
  rw [ofCells, ofCells, Endpoint.mk.injEq, HostAddress.mk.injEq]

/-- **An endpoint is told by its text.**  Two endpoints have the same text exactly if they
are the same, whatever their literals are, and the path of local sockets is this text.  Two
groups of six cells describe the same endpoint exactly if the first four cells agree and
the numerals of the last two, one after the other, are the same text.  Exactly then the
paths agree, and exactly then dialling gives the same answer and leaves the network the
same, on any network and for any order and limits. -/
theorem endpoint_told_by_text :
    (∀ e f : Endpoint, e.text = f.text ↔ e = f) ∧
    (∀ e : Endpoint, e.path = e.text) ∧
    ∀ a b c d high low a' b' c' d' high' low' : UInt8,
      let one := ofCells a b c d high low
      let other := ofCells a' b' c' d' high' low'
      (one = other ↔ (a = a' ∧ b = b' ∧ c = c' ∧ d = d') ∧
        Nat.repr high.toNat ++ Nat.repr low.toNat =
          Nat.repr high'.toNat ++ Nat.repr low'.toNat) ∧
      (one.path = other.path ↔ one = other) ∧
      ∀ (World Link : Type) (net : Network World Link) (options : DialOptions)
        (order : List Transport) (world : World),
        (dialFirst net one options order world).1.answer =
            (dialFirst net other options order world).1.answer ∧
          (dialFirst net one options order world).2 =
            (dialFirst net other options order world).2 ↔
        one = other := by
  refine ⟨fun _ _ => text_eq_iff, fun _ => rfl, ?_⟩
  intro a b c d high low a' b' c' d' high' low' one other
  exact ⟨ofCells_eq_iff, text_eq_iff, fun _ _ => dialFirst_alike_iff⟩

-- the literals of different cells may be the same text
example : ofCells 10 0 0 1 1 23 = ofCells 10 0 0 1 12 3 ∧
    ofCells 10 0 0 1 1 23 ≠ ofCells 10 0 0 1 1 32 := by decide

-- a literal may look like more of an address
example : Endpoint.text ⟨⟨1, 2, 3, 4⟩, "5.6:7"⟩ = "1.2.3.4:5.6:7" := rfl

end Endpoint
end RingTape
