import Mathlib.Data.List.DropRight
import Mathlib.Data.List.Forall2
import RingTape.Network.Transport

/-!
# Lists of transports

A list of transports is a text with commas between its fields.  `Written` says which fields
stand for which kinds: a field is either blank, and stands for nothing, or it is the name of
a kind, in letters of any case and with blanks around it.  A list is read as the kinds that
it is written for, and it cannot be read in any other case (`parseFields_eq_ok_iff`).

Nothing of this looks beyond a field.  So the fields of two lists with a comma between them
are read one after the other (`parseFields_append`), up to the first that cannot be read.

Names are compared in lower case, and blanks are dropped at both ends of a field.  Names
consist of small letters only.  Letters are not blank, so that the blanks that are dropped
are those around the name (`trimBlanks_of_word`).
-/

namespace RingTape

namespace Text

/-! ## Letter case -/

/-- A text is a recasing of a name in small letters, if some of the letters are capitals. -/
def Recased (name text : List Char) : Prop :=
  List.Forall₂ (fun letter c => c = letter ∨ c = letter.toUpper) name text

variable {c letter : Char} {name text : List Char}

theorem capital_iff : 'A'.val ≤ c.val ∧ c.val ≤ 'Z'.val ↔ 65 ≤ c.toNat ∧ c.toNat ≤ 90 :=
  and_congr UInt32.le_iff_toNat_le UInt32.le_iff_toNat_le

theorem small_iff : 'a'.val ≤ c.val ∧ c.val ≤ 'z'.val ↔ 97 ≤ c.toNat ∧ c.toNat ≤ 122 :=
  and_congr UInt32.le_iff_toNat_le UInt32.le_iff_toNat_le

theorem isUpper_iff : c.isUpper = true ↔ 65 ≤ c.toNat ∧ c.toNat ≤ 90 :=
  decide_eq_true_iff.trans capital_iff

theorem isLower_iff : c.isLower = true ↔ 97 ≤ c.toNat ∧ c.toNat ≤ 122 := by
  rw [← small_iff]
  exact Bool.and_eq_true_iff.trans (and_congr decide_eq_true_iff decide_eq_true_iff)

theorem isAlpha_iff : c.isAlpha = true ↔
    (65 ≤ c.toNat ∧ c.toNat ≤ 90) ∨ (97 ≤ c.toNat ∧ c.toNat ≤ 122) := by
  rw [← isUpper_iff, ← isLower_iff]
  exact Bool.or_eq_true_iff

/-- The place of a capital in the code is 32 before that of its small letter. -/
theorem toNat_toLower (c : Char) :
    c.toLower.toNat = if 65 ≤ c.toNat ∧ c.toNat ≤ 90 then c.toNat + 32 else c.toNat := by
  by_cases h : 65 ≤ c.toNat ∧ c.toNat ≤ 90
  · have hlower : c.toLower.val = c.val + ('a'.val - 'A'.val) := by
      rw [show c.toLower = _ from dif_pos (capital_iff.mpr h)]
    rw [← Char.toNat_val, hlower, if_pos h, UInt32.toNat_add, Char.toNat_val,
      show ('a'.val - 'A'.val).toNat = 32 by decide]
    omega
  · rw [show c.toLower = c from dif_neg (mt capital_iff.mp h), if_neg h]

theorem toNat_toUpper (c : Char) :
    c.toUpper.toNat = if 97 ≤ c.toNat ∧ c.toNat ≤ 122 then c.toNat - 32 else c.toNat := by
  by_cases h : 97 ≤ c.toNat ∧ c.toNat ≤ 122
  · have hupper : c.toUpper.val = c.val + ('A'.val - 'a'.val) := by
      rw [show c.toUpper = _ from dif_pos (small_iff.mpr h)]
    -- the difference of the codes is taken modulo 2 ^ 32
    rw [← Char.toNat_val, hupper, if_pos h, UInt32.toNat_add, Char.toNat_val,
      show ('A'.val - 'a'.val).toNat = 4294967264 by decide]
    omega
  · rw [show c.toUpper = c from dif_neg (mt small_iff.mp h), if_neg h]

/-- The characters that become a small letter are that letter and its capital. -/
theorem toLower_eq_iff (h : letter.isLower = true) :
    c.toLower = letter ↔ c = letter ∨ c = letter.toUpper := by
  rw [isLower_iff] at h
  rw [← Char.toNat_inj, ← Char.toNat_inj (c := c), ← Char.toNat_inj (c := c), toNat_toLower,
    toNat_toUpper, if_pos h]
  split <;> omega

/-- The characters that become a small letter are the letters. -/
theorem isLower_toLower : c.toLower.isLower = true ↔ c.isAlpha = true := by
  rw [isLower_iff, isAlpha_iff, toNat_toLower]
  split <;> omega

/-- **A text becomes a name in lower case** exactly if it is a recasing of it. -/
theorem recased_iff (hname : ∀ letter ∈ name, letter.isLower = true) :
    Recased name text ↔ text.map Char.toLower = name := by
  induction name generalizing text with
  | nil => simp [Recased]
  | cons letter name ih =>
    have hletter := hname letter List.mem_cons_self
    have hrest : ∀ c ∈ name, c.isLower = true :=
      fun c hc => hname c (List.mem_cons_of_mem letter hc)
    cases text with
    | nil => simp [Recased]
    | cons c text =>
      rw [Recased, List.forall₂_cons, ← toLower_eq_iff hletter, List.map_cons, List.cons.injEq]
      exact and_congr_right fun _ => ih hrest

theorem lowered_eq_iff {name text : String}
    (hname : ∀ letter ∈ name.toList, letter.isLower = true) :
    lowered text = name ↔ Recased name.toList text.toList := by
  rw [recased_iff hname, ← String.toList_inj, lowered, String.toList_ofList]

/-- A recasing of a name consists of letters. -/
theorem Recased.isAlpha (h : Recased name text) (hname : ∀ letter ∈ name, letter.isLower = true) :
    ∀ c ∈ text, c.isAlpha = true := by
  intro c hc
  rw [← isLower_toLower]
  apply hname
  rw [← (recased_iff hname).mp h]
  exact List.mem_map_of_mem hc

/-! ## Blanks around a word -/

theorem isBlank_of_isAlpha (h : c.isAlpha = true) : isBlank c = false := by
  have hrange := isAlpha_iff.mp h
  simp only [isBlank, Bool.or_eq_false_iff, Bool.and_eq_false_iff, decide_eq_false_iff_not,
    beq_eq_false_iff_ne]
  omega

variable {before word after field : List Char}

/-- **Blanks around a word are dropped**, and nothing of the word is. -/
theorem trimBlanks_of_word (hbefore : ∀ c ∈ before, isBlank c = true)
    (hafter : ∀ c ∈ after, isBlank c = true) (hword : ∀ c ∈ word, isBlank c = false) :
    trimBlanks (before ++ word ++ after) = word := by
  have hkept {others : List Char} (hothers : ∀ c ∈ others, isBlank c = false) :
      others.dropWhile isBlank = others := by
    rw [List.dropWhile_eq_self_iff]
    intro hpos
    simp [hothers _ (List.getElem_mem hpos)]
  have hreversed : ∀ c ∈ word.reverse, isBlank c = false :=
    fun c hc => hword c (List.mem_reverse.mp hc)
  by_cases hne : word = []
  · have hall : ∀ c ∈ before ++ word ++ after, isBlank c = true := by
      intro c hc
      rw [hne, List.append_nil] at hc
      rcases List.mem_append.mp hc with hc | hc
      · exact hbefore c hc
      · exact hafter c hc
    rw [trimBlanks, List.dropWhile_eq_nil_iff.mpr hall, hne]
    rfl
  · have hfront : (before ++ word ++ after).dropWhile isBlank = word ++ after := by
      obtain ⟨c, rest, rfl⟩ := List.exists_cons_of_ne_nil hne
      have hc : ¬ isBlank c = true := by simp [hword c List.mem_cons_self]
      rw [List.append_assoc, List.dropWhile_append_of_pos hbefore, List.cons_append,
        List.dropWhile_cons_of_neg hc]
    have hback : ∀ c ∈ after.reverse, isBlank c = true :=
      fun c hc => hafter c (List.mem_reverse.mp hc)
    rw [trimBlanks, hfront, List.reverse_append, List.dropWhile_append_of_pos hback,
      hkept hreversed, List.reverse_reverse]

/-- A field is what is left of it with blanks around. -/
theorem exists_trimBlanks (field : List Char) : ∃ before after,
    (∀ c ∈ before, isBlank c = true) ∧ (∀ c ∈ after, isBlank c = true) ∧
      field = before ++ trimBlanks field ++ after := by
  refine ⟨field.takeWhile isBlank, (field.dropWhile isBlank).rtakeWhile isBlank,
    fun c hc => List.mem_takeWhile_imp hc, ?_, ?_⟩
  · intro c hc
    rw [List.rtakeWhile, List.mem_reverse] at hc
    exact List.mem_takeWhile_imp hc
  · have hback : trimBlanks field ++ (field.dropWhile isBlank).rtakeWhile isBlank =
        field.dropWhile isBlank := List.rdropWhile_append_rtakeWhile
    rw [List.append_assoc, hback, List.takeWhile_append_dropWhile]

end Text

namespace Transport

open Text

variable {kind : Transport} {kinds others : List Transport} {field word : List Char}
  {fields rest : List (List Char)}

/-! ## What is written -/

/-- A word that names a kind: its name or, for raw packets, `ip`, in letters of any case. -/
inductive Names : Transport → List Char → Prop where
  | byName {kind : Transport} {word : List Char} (h : Recased kind.name.toList word) :
      Names kind word
  | byAlias {word : List Char} (h : Recased "ip".toList word) : Names raw word

/-- A field that names a kind: blanks, a word, blanks. -/
inductive FieldNames (kind : Transport) : List Char → Prop where
  | intro {before word after : List Char} (hbefore : ∀ c ∈ before, isBlank c = true)
      (hword : Names kind word) (hafter : ∀ c ∈ after, isBlank c = true) :
      FieldNames kind (before ++ word ++ after)

/-- **Fields that are written for kinds**: one that names each kind, in their order, with
any number of blank fields before, between and after them. -/
inductive Written : List Transport → List (List Char) → Prop where
  | nil : Written [] []
  | blank {kinds : List Transport} {field : List Char} {rest : List (List Char)}
      (hblank : ∀ c ∈ field, isBlank c = true) (hrest : Written kinds rest) :
      Written kinds (field :: rest)
  | named {kind : Transport} {kinds : List Transport} {field : List Char}
      {rest : List (List Char)} (hfield : FieldNames kind field) (hrest : Written kinds rest) :
      Written (kind :: kinds) (field :: rest)

theorem isLower_of_mem_name (kind : Transport) :
    ∀ letter ∈ kind.name.toList, letter.isLower = true := by
  cases kind <;> exact List.all_eq_true.mp rfl

theorem isLower_of_mem_alias : ∀ letter ∈ "ip".toList, letter.isLower = true :=
  List.all_eq_true.mp rfl

theorem ofName?_eq_some_iff {name : String} :
    ofName? name = some kind ↔ name = kind.name ∨ (kind = raw ∧ name = "ip") := by
  constructor
  · intro h
    unfold ofName? at h
    split_ifs at h <;> cases h <;> subst name <;> simp [Transport.name]
  · rintro (rfl | ⟨rfl, rfl⟩)
    · exact ofName?_name kind
    · rfl

/-- A word names a kind exactly if the kind has it as a name in lower case. -/
theorem names_iff : Names kind word ↔ ofName? (lowered (String.ofList word)) = some kind := by
  have hword : (String.ofList word).toList = word := String.toList_ofList
  rw [ofName?_eq_some_iff, lowered_eq_iff (isLower_of_mem_name kind),
    lowered_eq_iff isLower_of_mem_alias, hword]
  constructor
  · intro h
    cases h with
    | byName h => exact .inl h
    | byAlias h => exact .inr ⟨rfl, h⟩
  · rintro (h | ⟨rfl, h⟩)
    · exact .byName h
    · exact .byAlias h

theorem Names.isAlpha (h : Names kind word) : ∀ c ∈ word, c.isAlpha = true := by
  cases h with
  | byName h => exact h.isAlpha (isLower_of_mem_name kind)
  | byAlias h => exact h.isAlpha isLower_of_mem_alias

theorem Names.ne_nil (h : Names kind word) : word ≠ [] := by
  rintro rfl
  rw [names_iff] at h
  exact absurd h (by cases kind <;> decide)

/-! ## Reading a field -/

/-- **A field is read as the kind that it names**, and else not at all. -/
theorem parse_eq_ok_iff : parse (String.ofList field) = .ok kind ↔ FieldNames kind field := by
  have hread : parse (String.ofList field) = .ok kind ↔ Names kind (trimBlanks field) := by
    rw [names_iff, parse, trimmed, String.toList_ofList]
    cases ofName? (lowered (String.ofList (trimBlanks field))) <;> simp
  rw [hread]
  constructor
  · intro h
    obtain ⟨before, after, hbefore, hafter, heq⟩ := exists_trimBlanks field
    rw [heq]
    exact .intro hbefore h hafter
  · intro h
    cases h with
    | intro hbefore hword hafter =>
      rwa [trimBlanks_of_word hbefore hafter fun c hc => isBlank_of_isAlpha (hword.isAlpha c hc)]

theorem FieldNames.not_blank (h : FieldNames kind field) : ¬ field.all isBlank = true := by
  rw [List.all_eq_true]
  intro hblank
  cases h with
  | @intro before word after _ hword _ =>
    obtain ⟨c, word, rfl⟩ := List.exists_cons_of_ne_nil hword.ne_nil
    have hc := hblank c (by simp)
    rw [isBlank_of_isAlpha (hword.isAlpha c List.mem_cons_self)] at hc
    contradiction

/-! ## Reading a list -/

/-- **A list is read as the kinds that it is written for**, and else not at all. -/
theorem parseFields_eq_ok_iff : parseFields fields = .ok kinds ↔ Written kinds fields := by
  constructor
  · intro h
    induction fields generalizing kinds with
    | nil =>
      obtain rfl : [] = kinds := by simpa [parseFields] using h
      exact .nil
    | cons field rest ih =>
      rw [parseFields] at h
      split at h
      · rename_i hblank
        exact .blank (List.all_eq_true.mp hblank) (ih h)
      · split at h
        · cases h
        · rename_i kind hkind
          split at h
          · cases h
          · rename_i others hothers
            rw [← Except.ok.inj h]
            exact .named (parse_eq_ok_iff.mp hkind) (ih hothers)
  · intro h
    induction h with
    | nil => rfl
    | blank hblank _ ih => rw [parseFields, if_pos (List.all_eq_true.mpr hblank), ih]
    | named hfield _ ih => rw [parseFields, if_neg hfield.not_blank, parse_eq_ok_iff.mpr hfield, ih]

/-- **Fields are read one after the other.** -/
theorem parseFields_append (fields rest : List (List Char)) :
    parseFields (fields ++ rest) =
      match parseFields fields, parseFields rest with
      | .error e, _ => .error e
      | .ok _, .error e => .error e
      | .ok kinds, .ok others => .ok (kinds ++ others) := by
  induction fields with
  | nil =>
    rw [List.nil_append, parseFields]
    cases parseFields rest <;> rfl
  | cons field fields ih =>
    rw [List.cons_append, parseFields, parseFields, ih]
    split
    · rfl
    · cases parse (String.ofList field) with
      | error e => rfl
      | ok kind =>
        cases parseFields fields with
        | error e => rfl
        | ok kinds => cases parseFields rest <;> rfl

/-- No comma is a letter or a blank. -/
theorem Written.comma_not_mem (h : Written kinds fields) : ∀ field ∈ fields, ',' ∉ field := by
  have hcomma {blanks : List Char} (hblanks : ∀ c ∈ blanks, isBlank c = true) : ',' ∉ blanks :=
    fun hmem => absurd (hblanks ',' hmem) (by decide)
  induction h with
  | nil => exact fun _ hmem => absurd hmem List.not_mem_nil
  | blank hblank _ ih =>
    intro field hmem
    rcases List.mem_cons.mp hmem with rfl | hmem
    · exact hcomma hblank
    · exact ih field hmem
  | named hfield _ ih =>
    intro field hmem
    rcases List.mem_cons.mp hmem with rfl | hmem
    · cases hfield with
      | intro hbefore hword hafter =>
        rw [List.mem_append, List.mem_append]
        rintro ((hmem | hmem) | hmem)
        · exact hcomma hbefore hmem
        · exact absurd (hword.isAlpha ',' hmem) (by decide)
        · exact hcomma hafter hmem
    · exact ih field hmem

/-- **Lists of transports join, and are read as they are written.**  The order that two
lists with a comma between them give is that of the first followed by that of the second;
if one of them cannot be read, the error is that of the first that cannot.  And a text
gives an order exactly if it is written for it: fields with commas between them, among
which there is one for each kind of the order, repetitions included, that names it in
letters of any case with any blanks around, while the others are blank. -/
theorem order_lists_join_and_read_back :
    (∀ a b : String, parseOrder (a ++ "," ++ b) =
      match parseOrder a, parseOrder b with
      | .error e, _ => .error e
      | .ok _, .error e => .error e
      | .ok kinds, .ok others => .ok (kinds ++ others)) ∧
    ∀ (kinds : List Transport) (text : String), parseOrder text = .ok kinds ↔
      ∃ fields, Written kinds fields ∧ text.toList = [','].intercalate fields := by
  constructor
  · intro a b
    have hjoined : (a ++ "," ++ b).toList = a.toList ++ ',' :: b.toList := by simp
    rw [parseOrder, hjoined, List.splitOn_append_cons_self, parseFields_append, ← parseOrder,
      ← parseOrder]
  · intro kinds text
    rw [parseOrder, parseFields_eq_ok_iff]
    constructor
    · intro h
      exact ⟨_, h, (List.intercalate_splitOn ',').symm⟩
    · rintro ⟨fields, hwritten, htext⟩
      rw [htext]
      by_cases hnone : fields = []
      · subst hnone
        -- an empty text has one field, and that is blank
        exact .blank (fun c hc => absurd hc List.not_mem_nil) hwritten
      · rwa [List.splitOn_intercalate ',' hwritten.comma_not_mem hnone]

example : parseOrder " IP ,,\tUnix,raw,\n" = .ok [raw, unix, raw] := rfl

end Transport

end RingTape
