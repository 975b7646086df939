import RingTape.Proofs.Numerals
import RingTape.Text.Number

/-!
# Numbers in groups of three digits

Where a comma stands is decided from the front, by how many digits are still to come.
`InThousands` says what comes of it without saying how it is done: the text without its
commas is the decimal numeral, and the commas cut it into a first group of one to three
digits and later groups of exactly three.

The groups are found digit by digit.  A digit that is followed by a multiple of three
digits is the last of its group, so the length of the first group is known from the number
of digits alone, and a group that was cut off has three (`splitOn_groupDigits`).  What else
there is to say about commas follows from the groups: none of them is empty, and there are
as many commas as there are later groups.
-/

namespace RingTape.Text

/-! ## Pieces between separators -/

section Pieces

variable {separator : Char} {text : List Char}

/-- The pieces put together are the text without its separators. -/
theorem flatten_splitOn (separator : Char) (text : List Char) :
    (text.splitOn separator).flatten = text.filter (· != separator) := by
  induction text with
  | nil => rfl
  | cons c text ih =>
    obtain ⟨piece, others, hsplit⟩ :=
      List.exists_cons_of_ne_nil (List.splitOn_ne_nil separator text)
    rw [hsplit] at ih
    rw [List.splitOn_cons_eq_if_modifyHead, hsplit, List.filter_cons, ← ih]
    by_cases hc : c = separator <;> simp [hc]

/-- There is one piece more than there are separators. -/
theorem length_splitOn (separator : Char) (text : List Char) :
    (text.splitOn separator).length = text.count separator + 1 := by
  induction text with
  | nil => rfl
  | cons c text ih =>
    rw [List.splitOn_cons_eq_if_modifyHead, List.count_cons]
    by_cases hc : c = separator <;> simp [hc, ih]

/-- Two separators side by side have an empty piece between them. -/
theorem nil_mem_splitOn_of_doubled (h : [separator, separator] <:+: text) :
    [] ∈ text.splitOn separator := by
  obtain ⟨front, back, rfl⟩ := h
  have hcut : (front ++ [separator, separator] ++ back).splitOn separator =
      front.splitOn separator ++ [] :: back.splitOn separator := by
    rw [List.append_assoc, List.cons_append, List.splitOn_append_cons_self, List.cons_append,
      List.nil_append]
    exact congrArg _ (List.splitOn_append_cons_self [] back)
  rw [hcut]
  exact List.mem_append_right _ List.mem_cons_self

/-- A separator in front has an empty piece before it. -/
theorem nil_mem_splitOn_of_leading (h : text.head? = some separator) :
    [] ∈ text.splitOn separator := by
  obtain ⟨rest, rfl⟩ := List.head?_eq_some_iff.mp h
  rw [show (separator :: rest).splitOn separator = [] :: rest.splitOn separator from
    List.splitOn_append_cons_self [] rest]
  exact List.mem_cons_self

end Pieces

/-! ## Groups -/

/-- **A number in groups of three digits.** -/
structure InThousands (n : Nat) (text : List Char) : Prop where
  /-- Without the commas it is the decimal numeral. -/
  undivided : text.filter (· != ',') = Nat.toDigits 10 n
  /-- Between the commas are a first group of one to three characters and groups of three. -/
  groups : ∃ first later, text.splitOn ',' = first :: later ∧ 1 ≤ first.length ∧
    first.length ≤ 3 ∧ ∀ group ∈ later, group.length = 3

/-- Reads a number in groups of three digits; anything else is refused. -/
def readGrouped? (text : List Char) : Option Nat :=
  match text.splitOn ',' with
  | [] => none
  | first :: later =>
    if (1 ≤ first.length ∧ first.length ≤ 3) ∧ later.all (·.length == 3) ∧
        (first :: later).flatten.all Char.isDigit then
      some (Nat.ofDigitChars 10 (first :: later).flatten 0)
    else none

example : readGrouped? ['1', ',', '0', '2', '4'] = some 1024 ∧
    readGrouped? ['1', '0', '2', '4'] = none ∧ readGrouped? ['1', ',', '0', '2'] = none := by
  decide

section Groups

variable {n : Nat} {text digits : List Char}

namespace InThousands

theorem flatten_eq (h : InThousands n text) : (text.splitOn ',').flatten = Nat.toDigits 10 n := by
  rw [flatten_splitOn, h.undivided]

theorem isDigit (h : InThousands n text) :
    ∀ group ∈ text.splitOn ',', ∀ c ∈ group, c.isDigit = true := by
  intro group hgroup c hc
  have hmem : c ∈ (text.splitOn ',').flatten := List.mem_flatten.mpr ⟨group, hgroup, hc⟩
  rw [h.flatten_eq] at hmem
  exact (digits_toDigits n).isDigit c hmem

/-- There is nothing but digits and commas. -/
theorem not_mem (h : InThousands n text) {c : Char} (hcomma : c ≠ ',')
    (hdigit : c.isDigit = false) : c ∉ text := by
  intro hc
  have hmem : c ∈ text.filter (· != ',') := List.mem_filter.mpr ⟨hc, bne_iff_ne.mpr hcomma⟩
  rw [h.undivided] at hmem
  exact not_mem_toDigits hdigit n hmem

theorem ne_nil (h : InThousands n text) : text ≠ [] := by
  rintro rfl
  exact Nat.toDigits_ne_nil h.undivided.symm

/-- No group is empty. -/
theorem nil_not_mem (h : InThousands n text) : [] ∉ text.splitOn ',' := by
  obtain ⟨first, later, hsplit, hfirst, -, hlater⟩ := h.groups
  rw [hsplit, List.mem_cons]
  rintro (hnil | hnil)
  · rw [← hnil] at hfirst
    exact absurd hfirst (by decide)
  · exact absurd (hlater [] hnil) (by decide)

/-- The digits make up the groups, and all groups but the first have three of them. -/
theorem count_comma (h : InThousands n text) :
    text.count ',' = ((Nat.toDigits 10 n).length - 1) / 3 := by
  obtain ⟨first, later, hsplit, hfirst, hthree, hlater⟩ := h.groups
  have hcount : later.length = text.count ',' := by
    have hpieces := length_splitOn ',' text
    rw [hsplit, List.length_cons] at hpieces
    exact Nat.succ.inj hpieces
  have hlengths : later.map List.length = List.replicate later.length 3 :=
    List.eq_replicate_iff.mpr ⟨List.length_map .., by simpa using hlater⟩
  have hdigits : (Nat.toDigits 10 n).length = first.length + later.length * 3 := by
    rw [← h.flatten_eq, hsplit, List.length_flatten, List.map_cons, List.sum_cons, hlengths,
      List.sum_replicate_nat]
  omega

/-- **A number in groups is read as that number.** -/
theorem readGrouped?_eq (h : InThousands n text) : readGrouped? text = some n := by
  obtain ⟨first, later, hsplit, hfirst, hthree, hlater⟩ := h.groups
  have hflat : (first :: later).flatten = Nat.toDigits 10 n := by rw [← hsplit, h.flatten_eq]
  have hgroups : later.all (·.length == 3) = true :=
    List.all_eq_true.mpr fun group hgroup => beq_iff_eq.mpr (hlater group hgroup)
  have hdigits : (Nat.toDigits 10 n).all Char.isDigit = true :=
    List.all_eq_true.mpr (digits_toDigits n).isDigit
  rw [readGrouped?, hsplit]
  dsimp only
  rw [hflat, if_pos ⟨⟨hfirst, hthree⟩, hgroups, hdigits⟩, (digits_toDigits n).value_eq]

end InThousands

/-! ## Grouping digits -/

theorem filter_groupDigits (h : ',' ∉ digits) :
    (groupDigits digits).filter (· != ',') = digits := by
  fun_induction groupDigits digits with
  | case1 => rfl
  | case2 digit =>
    have hdigit : (digit != ',') = true := bne_iff_ne.mpr fun heq => h (by simp [heq])
    simp [hdigit]
  | case3 digit rest _ _ ih | case4 digit rest _ _ ih =>
    rw [List.mem_cons, not_or] at h
    have hdigit : (digit != ',') = true := bne_iff_ne.mpr (Ne.symm h.1)
    simp [hdigit, ih h.2]

/-- **The groups of a string of digits.**  The first has what is left over when the digits
are counted off in threes from the right, or three if nothing is. -/
theorem splitOn_groupDigits (hne : digits ≠ []) (h : ',' ∉ digits) :
    ∃ first later, (groupDigits digits).splitOn ',' = first :: later ∧
      first.length = (digits.length - 1) % 3 + 1 ∧ ∀ group ∈ later, group.length = 3 := by
  fun_induction groupDigits digits with
  | case1 => contradiction
  | case2 digit => exact ⟨[digit], [], List.splitOn_eq_singleton h, rfl, by simp⟩
  | case3 digit rest hrest hmod ih =>
    -- the comma ends the group of this digit, and the rest starts with a whole one
    rw [List.mem_cons, not_or] at h
    have hpos := List.length_pos_iff.mpr hrest
    obtain ⟨first, later, hsplit, hfirst, hlater⟩ := ih hrest h.2
    have hcut : (digit :: ',' :: groupDigits rest).splitOn ',' = [digit] :: first :: later := by
      have halone : ',' ∉ [digit] := by simpa using h.1
      rw [← hsplit]
      exact List.splitOn_append_cons_self_of_not_mem halone (groupDigits rest)
    refine ⟨[digit], first :: later, hcut, ?_, ?_⟩
    · rw [List.length_singleton, List.length_cons]
      omega
    · rintro group (_ | ⟨_, hgroup⟩)
      · omega
      · exact hlater group hgroup
  | case4 digit rest hrest hmod ih =>
    rw [List.mem_cons, not_or] at h
    have hpos := List.length_pos_iff.mpr hrest
    obtain ⟨first, later, hsplit, hfirst, hlater⟩ := ih hrest h.2
    have hcut : (digit :: groupDigits rest).splitOn ',' = (digit :: first) :: later := by
      rw [List.splitOn_cons_eq_if_modifyHead, hsplit, if_neg (mt beq_iff_eq.mp (Ne.symm h.1)),
        List.modifyHead_cons]
    refine ⟨digit :: first, later, hcut, ?_, hlater⟩
    rw [List.length_cons, List.length_cons]
    omega

end Groups

theorem inThousands_grouped (n : Nat) : InThousands n (grouped n).toList := by
  have hcomma : ',' ∉ Nat.toDigits 10 n := not_mem_toDigits (by decide) n
  rw [grouped, String.toList_ofList]
  refine ⟨filter_groupDigits hcomma, ?_⟩
  obtain ⟨first, later, hsplit, hfirst, hlater⟩ :=
    splitOn_groupDigits Nat.toDigits_ne_nil hcomma
  exact ⟨first, later, hsplit, by omega, by omega, hlater⟩

/-- **Counts are written in thousands.**  Without its commas, a count that was written in
groups is its decimal numeral.  Cut at the commas it is a first group of one to three
digits and then groups of exactly three.  So no comma comes first and no two stand side
by side, there is a comma for every three digits that follow the first digit, and different
counts are written differently. -/
theorem counts_in_thousands (n : Nat) :
    String.ofList ((grouped n).toList.filter (· != ',')) = Nat.repr n ∧
    (∃ first later, (grouped n).toList.splitOn ',' = first :: later ∧
      1 ≤ first.length ∧ first.length ≤ 3 ∧ (∀ group ∈ later, group.length = 3) ∧
      ∀ group ∈ first :: later, ∀ c ∈ group, c.isDigit = true) ∧
    (grouped n).toList.head? ≠ some ',' ∧ ¬ [',', ','] <:+: (grouped n).toList ∧
    (grouped n).toList.count ',' = ((Nat.repr n).length - 1) / 3 ∧
    ∀ m, grouped m = grouped n ↔ m = n := by
  have hgrouped := inThousands_grouped n
  have hrepr : Nat.repr n = String.ofList (Nat.toDigits 10 n) := Nat.repr_eq_ofList_toDigits
  refine ⟨?_, ?_, ?_, ?_, ?_, ?_⟩
  · rw [hgrouped.undivided, hrepr]
  · obtain ⟨first, later, hsplit, hfirst, hthree, hlater⟩ := hgrouped.groups
    exact ⟨first, later, hsplit, hfirst, hthree, hlater, hsplit ▸ hgrouped.isDigit⟩
  · exact fun hleading => hgrouped.nil_not_mem (nil_mem_splitOn_of_leading hleading)
  · exact fun hdoubled => hgrouped.nil_not_mem (nil_mem_splitOn_of_doubled hdoubled)
  · rw [hgrouped.count_comma, hrepr, String.length_ofList]
  · intro m
    constructor
    · intro hsame
      have hread : some m = some n := by
        rw [← (inThousands_grouped m).readGrouped?_eq, hsame, hgrouped.readGrouped?_eq]
      exact Option.some.inj hread
    · exact fun heq => congrArg grouped heq

example : grouped 18446744073709551615 = "18,446,744,073,709,551,615" := by decide

end RingTape.Text
