import RingTape.Command.Options
import RingTape.Proofs.Numerals
import RingTape.Proofs.TransportLists

/-!
# Groups of arguments

The grammar of the arguments is that of their groups.  `Spells` lists the groups with what
each asks for, and `Malformed` lists what may stand where a group is expected and is none.
Between them they leave nothing out: a list that is not empty is read as what it starts
with (`readGroup_spec`), and nothing else is (`Spells.readGroup_eq`,
`Malformed.readGroup_eq`).

Most of it is about values.  A number is a numeral of 64 bits, a policy is its name in
letters of any case, and for each option there is one lemma that what its reader makes of a
text is what the grammar says of the option with that text (`Reads`).
-/

namespace RingTape.Command

open Text

/-! ## The grammar -/

/-- The options that take the next argument for their value. -/
def valueFlags : List String :=
  ["-e", "--eval", "--transports", "--connect-timeout", "--io-timeout", "--max-steps", "--on-eof"]

/-- The options that stand alone. -/
def plainFlags : List String :=
  ["--dump", "--profile", "-v", "--verbose"]

/-- A text that may be a path: it is empty, a dash, or does not start with a dash. -/
def IsPath (text : String) : Prop :=
  text = "" ∨ text = "-" ∨ text.toList.head? ≠ some '-'

/-- A numeral of a number of 64 bits. -/
def WideNumeral (value : Nat) (text : String) : Prop :=
  Numeral value text.toList ∧ value < UInt64.size

/-- **A group of arguments**, and what it asks for. -/
inductive Spells : List String → Group → Prop where
  | program {flag : String} (hflag : flag = "-e" ∨ flag = "--eval") (text : String) :
      Spells [flag, text] (.program (.inline text))
  | transports {text : String} {order : List Transport}
      (horder : Transport.parseOrder text = .ok order) (hsome : order ≠ []) :
      Spells ["--transports", text] (.transports order)
  | connectTimeout {text : String} {millis : Nat} (hmillis : WideNumeral millis text) :
      Spells ["--connect-timeout", text] (.connectTimeout (.ofMillis millis))
  | transferTimeout {text : String} {millis : Nat} (hmillis : WideNumeral millis text) :
      Spells ["--io-timeout", text] (.transferTimeout (.ofMillis millis))
  | maxSteps {text : String} {limit : UInt64} (hlimit : WideNumeral limit.toNat text) :
      Spells ["--max-steps", text] (.maxSteps limit)
  | onEnd {text : String} {policy : EndPolicy}
      (hpolicy : Recased policy.name.toList text.toList) :
      Spells ["--on-eof", text] (.onEnd policy)
  | dump : Spells ["--dump"] .dump
  | profile : Spells ["--profile"] .profile
  | verbose {flag : String} (hflag : flag = "-v" ∨ flag = "--verbose") : Spells [flag] .verbose
  | path {text : String} (hpath : IsPath text) : Spells [text] (.program (.file text))

/-- **What starts a list of arguments and is no group**, with the error that it makes. -/
inductive Malformed : List String → UsageError → Prop where
  | missingValue {flag : String} (hflag : flag ∈ valueFlags) :
      Malformed [flag] (.missingValue flag)
  | unknownTransport {text : String} {error : UnknownTransport} (rest : List String)
      (horder : Transport.parseOrder text = .error error) :
      Malformed ("--transports" :: text :: rest) (.unknownTransport error)
  | noTransports {text : String} (rest : List String)
      (horder : Transport.parseOrder text = .ok []) :
      Malformed ("--transports" :: text :: rest) .noTransports
  | badDuration {flag text : String} (rest : List String)
      (hflag : flag = "--connect-timeout" ∨ flag = "--io-timeout")
      (hmillis : ¬ ∃ millis, WideNumeral millis text) :
      Malformed (flag :: text :: rest) (.badDuration flag text)
  | badStepCount {text : String} (rest : List String)
      (hlimit : ¬ ∃ limit, WideNumeral limit text) :
      Malformed ("--max-steps" :: text :: rest) (.badStepCount text)
  | unknownPolicy {text : String} (rest : List String)
      (hpolicy : ∀ policy : EndPolicy, ¬ Recased policy.name.toList text.toList) :
      Malformed ("--on-eof" :: text :: rest) (.unknownPolicy ⟨lowered text⟩)
  | unexpected {argument : String} (rest : List String) (hpath : ¬ IsPath argument)
      (hvalue : argument ∉ valueFlags) (hplain : argument ∉ plainFlags) :
      Malformed (argument :: rest) (.unexpected argument)

variable {arguments piece rest : List String} {argument flag text : String} {group : Group}
  {error : UsageError} {value : Nat}

theorem Spells.ne_nil (h : Spells piece group) : piece ≠ [] := by
  cases h <;> exact List.cons_ne_nil _ _

/-! ## Reading a value -/

theorem wideNumeral?_eq_some_iff : wideNumeral? text = some value ↔ WideNumeral value text := by
  have hbound : value ≤ UInt64.size - 1 ↔ value < UInt64.size :=
    Nat.le_sub_one_iff_lt (by decide)
  rw [wideNumeral?, numeral?_eq_some_iff, hbound, WideNumeral]

theorem wideNumeral?_eq_none_iff :
    wideNumeral? text = none ↔ ¬ ∃ value, WideNumeral value text := by
  rw [Option.eq_none_iff_forall_ne_some, not_exists]
  exact forall_congr' fun value => not_congr wideNumeral?_eq_some_iff

theorem isLower_of_mem_policyName (policy : EndPolicy) :
    ∀ letter ∈ policy.name.toList, letter.isLower = true := by
  cases policy <;> exact List.all_eq_true.mp rfl

/-- A policy is read from its name, in letters of any case. -/
theorem parsePolicy_eq_ok_iff {policy : EndPolicy} :
    EndPolicy.parse text = .ok policy ↔ Recased policy.name.toList text.toList := by
  rw [← lowered_eq_iff (isLower_of_mem_policyName policy), EndPolicy.parse]
  constructor
  · intro h
    split_ifs at h with hzero hkeep hhalt <;> cases h
    · exact hzero
    · exact hkeep
    · exact hhalt
  · intro h
    rw [h]
    cases policy <;> rfl

theorem parsePolicy_of_error {error : UnknownPolicy} (h : EndPolicy.parse text = .error error) :
    error = ⟨lowered text⟩ := by
  rw [EndPolicy.parse] at h
  split_ifs at h
  exact (Except.error.inj h).symm

/-- What looks like an option is no path. -/
theorem looksLikeOption_iff : looksLikeOption argument = true ↔ ¬ IsPath argument := by
  have hempty : argument = "" ↔ argument.toList = [] := by
    rw [← String.toList_inj]
    rfl
  have hdash : argument = "-" ↔ argument.toList = ['-'] := by
    rw [← String.toList_inj]
    rfl
  rw [IsPath, hempty, hdash, looksLikeOption]
  rcases argument.toList with _ | ⟨c, _ | ⟨d, rest⟩⟩
  · simp
  · split <;> simp_all
  · by_cases hc : c = '-'
    · subst hc
      simp
    · split
      · rename_i heq
        exact absurd (List.cons.inj heq).1 hc
      · simp [hc]

/-! ## Reading a group -/

/-- The group at the start of a list, and the arguments after it. -/
def readGroup (argument : String) (rest : List String) :
    Except UsageError (Group × List String) :=
  match valueReader? argument with
  | none =>
    match plainGroup argument with
    | .error e => .error e
    | .ok group => .ok (group, rest)
  | some reader =>
    match rest with
    | [] => .error (.missingValue argument)
    | value :: rest =>
      match reader value with
      | .error e => .error e
      | .ok group => .ok (group, rest)

/-- **One step of reading**: a group is read and taken into account. -/
theorem read_cons (draft : Draft) (argument : String) (rest : List String) :
    draft.read (argument :: rest) =
      match readGroup argument rest with
      | .error e => .error e
      | .ok (group, others) =>
        match draft.add group with
        | .error e => .error e
        | .ok draft => draft.read others := by
  rw [Draft.read, readGroup]
  cases valueReader? argument with
  | none => cases plainGroup argument <;> rfl
  | some reader =>
    cases rest with
    | nil => rfl
    | cons value rest =>
      dsimp only
      cases reader value <;> rfl

/-- A way to read the value of an option gives what the grammar says of the two arguments. -/
def Reads (flag : String) (reader : String → Except UsageError Group) : Prop :=
  ∀ text, match reader text with
    | .ok group => Spells [flag, text] group
    | .error e => ∀ rest, Malformed (flag :: text :: rest) e

theorem reads_transports : Reads "--transports" transportsGroup := by
  intro text
  unfold transportsGroup
  cases horder : Transport.parseOrder text with
  | error e => exact fun rest => .unknownTransport rest horder
  | ok order =>
    cases order with
    | nil => exact fun rest => .noTransports rest horder
    | cons kind order => exact .transports horder (List.cons_ne_nil _ _)

theorem reads_duration {build : Duration → Group}
    (hflag : flag = "--connect-timeout" ∨ flag = "--io-timeout")
    (hbuild : ∀ {text millis}, WideNumeral millis text →
      Spells [flag, text] (build (.ofMillis millis))) :
    Reads flag (durationGroup flag build) := by
  intro text
  unfold durationGroup
  cases hmillis : wideNumeral? text with
  | none => exact fun rest => .badDuration rest hflag (wideNumeral?_eq_none_iff.mp hmillis)
  | some millis => exact hbuild (wideNumeral?_eq_some_iff.mp hmillis)

theorem reads_steps : Reads "--max-steps" stepsGroup := by
  intro text
  unfold stepsGroup
  cases hlimit : wideNumeral? text with
  | none => exact fun rest => .badStepCount rest (wideNumeral?_eq_none_iff.mp hlimit)
  | some limit =>
    have hnumeral := wideNumeral?_eq_some_iff.mp hlimit
    have hsame : (UInt64.ofNat limit).toNat = limit := UInt64.toNat_ofNat_of_lt' hnumeral.2
    exact .maxSteps (hsame.symm ▸ hnumeral)

theorem reads_policy : Reads "--on-eof" policyGroup := by
  intro text
  unfold policyGroup
  cases hpolicy : EndPolicy.parse text with
  | ok policy => exact .onEnd (parsePolicy_eq_ok_iff.mp hpolicy)
  | error e =>
    obtain rfl := parsePolicy_of_error hpolicy
    refine fun rest => .unknownPolicy rest fun policy hname => ?_
    rw [parsePolicy_eq_ok_iff.mpr hname] at hpolicy
    cases hpolicy

/-- **The options with a value** are read by the grammar. -/
theorem reads_of_valueReader {reader : String → Except UsageError Group}
    (h : valueReader? flag = some reader) : flag ∈ valueFlags ∧ Reads flag reader := by
  unfold valueReader? at h
  split_ifs at h with hprogram htransports hconnect htransfer hsteps hpolicy <;>
    obtain rfl := Option.some.inj h
  · refine ⟨?_, fun text => .program hprogram text⟩
    rcases hprogram with rfl | rfl <;> decide
  · subst htransports
    exact ⟨by decide, reads_transports⟩
  · subst hconnect
    exact ⟨by decide, reads_duration (.inl rfl) .connectTimeout⟩
  · subst htransfer
    exact ⟨by decide, reads_duration (.inr rfl) .transferTimeout⟩
  · subst hsteps
    exact ⟨by decide, reads_steps⟩
  · subst hpolicy
    exact ⟨by decide, reads_policy⟩

theorem valueReader?_eq_none_iff : valueReader? flag = none ↔ flag ∉ valueFlags := by
  constructor
  · intro h hmem
    unfold valueReader? at h
    split_ifs at h
    simp_all [valueFlags]
  · intro h
    cases hreader : valueReader? flag with
    | none => rfl
    | some reader => exact absurd (reads_of_valueReader hreader).1 h

/-- An argument that takes no value is a group, or it is unexpected. -/
theorem plainGroup_spec (hvalue : argument ∉ valueFlags) :
    match plainGroup argument with
    | .ok group => Spells [argument] group
    | .error e => ∀ rest, Malformed (argument :: rest) e := by
  unfold plainGroup
  by_cases hdump : argument = "--dump"
  · rw [if_pos hdump, hdump]
    exact .dump
  rw [if_neg hdump]
  by_cases hprofile : argument = "--profile"
  · rw [if_pos hprofile, hprofile]
    exact .profile
  rw [if_neg hprofile]
  by_cases hverbose : argument = "-v" ∨ argument = "--verbose"
  · rw [if_pos hverbose]
    exact .verbose hverbose
  rw [if_neg hverbose]
  by_cases hoption : looksLikeOption argument = true
  · rw [if_pos hoption]
    have hplain : argument ∉ plainFlags := by
      rw [not_or] at hverbose
      simp [plainFlags, hdump, hprofile, hverbose]
    exact fun rest => .unexpected rest (looksLikeOption_iff.mp hoption) hvalue hplain
  · rw [if_neg hoption]
    exact .path (not_not.mp (mt looksLikeOption_iff.mpr hoption))

/-- What stands at the start of a list is read as the grammar says. -/
theorem readGroup_spec (argument : String) (rest : List String) :
    match readGroup argument rest with
    | .ok (group, others) => ∃ piece, Spells piece group ∧ argument :: rest = piece ++ others
    | .error e => Malformed (argument :: rest) e := by
  unfold readGroup
  cases hreader : valueReader? argument with
  | none =>
    have hplain := plainGroup_spec (valueReader?_eq_none_iff.mp hreader)
    cases hgroup : plainGroup argument with
    | error e =>
      rw [hgroup] at hplain
      exact hplain rest
    | ok group =>
      rw [hgroup] at hplain
      exact ⟨[argument], hplain, rfl⟩
  | some reader =>
    obtain ⟨hflag, hreads⟩ := reads_of_valueReader hreader
    cases rest with
    | nil => exact .missingValue hflag
    | cons text rest =>
      have hvalue := hreads text
      dsimp only
      cases hgroup : reader text with
      | error e =>
        rw [hgroup] at hvalue
        exact hvalue rest
      | ok group =>
        rw [hgroup] at hvalue
        exact ⟨[argument, text], hvalue, rfl⟩

/-- A path is none of the options. -/
theorem IsPath.not_mem (h : IsPath argument) : argument ∉ valueFlags ++ plainFlags := by
  intro hmem
  have hall : ∀ flag ∈ valueFlags ++ plainFlags, looksLikeOption flag = true :=
    List.all_eq_true.mp rfl
  exact looksLikeOption_iff.mp (hall argument hmem) h

theorem readGroup_value {reader : String → Except UsageError Group}
    (hreader : valueReader? flag = some reader) (text : String) (rest : List String) :
    readGroup flag (text :: rest) =
      match reader text with
      | .error e => .error e
      | .ok group => .ok (group, rest) := by
  rw [readGroup, hreader]

theorem readGroup_plain (hvalue : argument ∉ valueFlags) (rest : List String) :
    readGroup argument rest =
      match plainGroup argument with
      | .error e => .error e
      | .ok group => .ok (group, rest) := by
  rw [readGroup, valueReader?_eq_none_iff.mpr hvalue]

/-- A group is read, whatever comes after it. -/
theorem Spells.readGroup_eq (h : Spells (argument :: rest) group) (others : List String) :
    readGroup argument (rest ++ others) = .ok (group, others) := by
  cases h with
  | program hflag text =>
    have hreader : valueReader? argument = some fun text => .ok (.program (.inline text)) :=
      if_pos hflag
    exact readGroup_value hreader text others
  | @transports text order horder hsome =>
    obtain ⟨kind, kinds, rfl⟩ := List.exists_cons_of_ne_nil hsome
    rw [List.singleton_append, readGroup_value rfl, transportsGroup, horder]
  | connectTimeout hmillis =>
    rw [List.singleton_append, readGroup_value rfl, durationGroup,
      wideNumeral?_eq_some_iff.mpr hmillis]
  | transferTimeout hmillis =>
    rw [List.singleton_append, readGroup_value rfl, durationGroup,
      wideNumeral?_eq_some_iff.mpr hmillis]
  | maxSteps hlimit =>
    rw [List.singleton_append, readGroup_value rfl, stepsGroup, wideNumeral?_eq_some_iff.mpr hlimit]
    dsimp only
    rw [UInt64.ofNat_toNat]
  | onEnd hpolicy =>
    rw [List.singleton_append, readGroup_value rfl, policyGroup, parsePolicy_eq_ok_iff.mpr hpolicy]
  | dump => rfl
  | profile => rfl
  | verbose hflag => rcases hflag with rfl | rfl <;> rfl
  | path hpath =>
    have hflags := hpath.not_mem
    rw [List.mem_append, not_or] at hflags
    have hgroup : plainGroup argument = .ok (.program (.file argument)) := by
      have hoption : ¬ looksLikeOption argument = true := fun h => looksLikeOption_iff.mp h hpath
      have hplain := hflags.2
      simp only [plainFlags, List.mem_cons, List.not_mem_nil, or_false, not_or] at hplain
      obtain ⟨hdump, hprofile, hverbose⟩ := hplain
      rw [plainGroup, if_neg hdump, if_neg hprofile, if_neg (not_or.mpr hverbose), if_neg hoption]
    rw [readGroup_plain hflags.1, hgroup]
    rfl

/-- What is malformed makes its error. -/
theorem Malformed.readGroup_eq (h : Malformed (argument :: rest) error) :
    readGroup argument rest = .error error := by
  cases h with
  | missingValue hflag =>
    rw [readGroup]
    cases hreader : valueReader? argument with
    | none => exact absurd hflag (valueReader?_eq_none_iff.mp hreader)
    | some reader => rfl
  | unknownTransport _ horder => rw [readGroup_value rfl, transportsGroup, horder]
  | noTransports _ horder => rw [readGroup_value rfl, transportsGroup, horder]
  | badDuration _ hflag hmillis =>
    rcases hflag with rfl | rfl
    · rw [readGroup_value rfl, durationGroup, wideNumeral?_eq_none_iff.mpr hmillis]
    · rw [readGroup_value rfl, durationGroup, wideNumeral?_eq_none_iff.mpr hmillis]
  | badStepCount _ hlimit =>
    rw [readGroup_value rfl, stepsGroup, wideNumeral?_eq_none_iff.mpr hlimit]
  | @unknownPolicy text _ hpolicy =>
    rw [readGroup_value rfl, policyGroup]
    cases hparse : EndPolicy.parse text with
    | ok policy => exact absurd (parsePolicy_eq_ok_iff.mp hparse) (hpolicy policy)
    | error e => rw [parsePolicy_of_error hparse]
  | unexpected _ hpath hvalue hplain =>
    have hgroup : plainGroup argument = .error (.unexpected argument) := by
      simp only [plainFlags, List.mem_cons, List.not_mem_nil, or_false, not_or] at hplain
      obtain ⟨hdump, hprofile, hverbose⟩ := hplain
      rw [plainGroup, if_neg hdump, if_neg hprofile, if_neg (not_or.mpr hverbose),
        if_pos (looksLikeOption_iff.mpr hpath)]
    rw [readGroup_plain hvalue, hgroup]

/-- **A list starts with a group or with what is malformed.** -/
theorem spells_or_malformed (hsome : arguments ≠ []) :
    (∃ piece group rest, Spells piece group ∧ arguments = piece ++ rest) ∨
      ∃ error, Malformed arguments error := by
  obtain ⟨argument, rest, rfl⟩ := List.exists_cons_of_ne_nil hsome
  have hspec := readGroup_spec argument rest
  cases hread : readGroup argument rest with
  | error e =>
    rw [hread] at hspec
    exact .inr ⟨e, hspec⟩
  | ok read =>
    rw [hread] at hspec
    obtain ⟨piece, hpiece, hsplit⟩ := hspec
    exact .inl ⟨piece, read.1, read.2, hpiece, hsplit⟩

end RingTape.Command
