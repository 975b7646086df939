/-!
# Texts

Two notions of blank are in use and must not be confused. Program text is cut only at the five
ASCII separators of `isSeparator`; names given by a user (log levels, transport kinds) are trimmed
of every character with the Unicode property `White_Space`, which `isBlank` decides. Names are
compared without regard to the case of the letters `A` to `Z`; no other letter is folded.

Lines, fields of a list and names of a path are the pieces of a text between the occurrences of a
separator, as `List.splitOn` cuts them: there is one piece more than there are separators, and
pieces may be empty.

Texts are stored and sent in UTF-8. `utf8` writes a text and `ofUtf8?` reads one; bytes that are
not the UTF-8 of any text are refused.
-/

namespace RingTape.Text

/-! ## Blanks and letter case -/

/-- The separators of program text: space, tab, line feed, form feed and carriage return. A
vertical tab is not one. -/
def isSeparator (c : Char) : Bool :=
  c == ' ' || c == '\t' || c == '\n' || c == '\x0c' || c == '\r'

/-- The characters with the Unicode property `White_Space`. -/
def isBlank (c : Char) : Bool :=
  let n := c.toNat
  (0x09 ≤ n && n ≤ 0x0d) || n == 0x20 || n == 0x85 || n == 0xa0 || n == 0x1680 ||
    (0x2000 ≤ n && n ≤ 0x200a) || n == 0x2028 || n == 0x2029 || n == 0x202f || n == 0x205f ||
    n == 0x3000

/-- Drops the blanks at both ends. -/
def trimBlanks (cs : List Char) : List Char :=
  ((cs.dropWhile isBlank).reverse.dropWhile isBlank).reverse

/-- A text without the blanks at its ends. -/
def trimmed (text : String) : String :=
  String.ofList (trimBlanks text.toList)

/-- A text with the letters `A` to `Z` in lower case and every other character kept. -/
def lowered (text : String) : String :=
  String.ofList (text.toList.map Char.toLower)

/-! ## Pieces -/

/-- **Pieces that are each ended by a separator** are told apart; nothing comes after the last
of them. -/
theorem splitOn_ended {separator : Char} {pieces : List (List Char)}
    (h : ∀ piece ∈ pieces, separator ∉ piece) :
    (pieces.flatMap fun piece => piece ++ [separator]).splitOn separator = pieces ++ [[]] := by
  induction pieces with
  | nil => rfl
  | cons piece pieces ih =>
    have hpiece := h piece List.mem_cons_self
    have hrest := ih fun other hother => h other (List.mem_cons_of_mem piece hother)
    rw [List.flatMap_cons, List.append_assoc, List.singleton_append,
      List.splitOn_append_cons_self_of_not_mem hpiece, hrest, List.cons_append]

/-! ## Bytes -/

/-- The bytes of a text in UTF-8. -/
def utf8 (text : List Char) : List UInt8 :=
  text.flatMap String.utf8EncodeChar

/-- The text with the given bytes, if there is one. -/
def ofUtf8? (bytes : List UInt8) : Option String :=
  String.fromUTF8? (ByteArray.mk bytes.toArray)

/-- The bytes of a joined text are the joined bytes. -/
@[simp]
theorem utf8_append (a b : List Char) : utf8 (a ++ b) = utf8 a ++ utf8 b := by
  simp [utf8]

/-- **Reading undoes writing** and accepts nothing else. -/
theorem ofUtf8?_eq_some_iff {bytes : List UInt8} {text : String} :
    ofUtf8? bytes = some text ↔ bytes = utf8 text.toList := by
  have hwritten : text.toByteArray.data.toList = utf8 text.toList := by
    rw [← String.utf8Encode_toList, List.utf8Encode, List.data_toByteArray]
    rfl
  unfold ofUtf8? String.fromUTF8?
  constructor
  · intro h
    split at h
    · rw [← hwritten, ← Option.some.inj h]
      rfl
    · cases h
  · rintro rfl
    have hbytes : ByteArray.mk (utf8 text.toList).toArray = text.toByteArray := by
      apply ByteArray.ext
      rw [← hwritten]
    rw [hbytes, dif_pos text.isValidUTF8]
    rfl

end RingTape.Text
