import RingTape.Proofs.ArgumentGroups

/-!
# Argument lists are read by groups

What the groups of a list amount to does not depend on how they were read.  Taking a group
into account changes a draft to `draft.after [group]`, or is refused if the group is a
second program (`Draft.add_eq_ok`, `Draft.add_second`).  Since what comes after two parts of
a list comes after the one and then the other (`Draft.after_append`), a run over the groups
gives what `Draft.after` says of all of them (`read_grouped`): for each option with a value
that of its last occurrence, and of an option without one whether it occurs.

A list is therefore accepted with certain options, or it offends the grammar in a certain
way (`accepts_or_offence`), and it is read accordingly (`parse_of_accepts`,
`parse_of_offence`).
-/

namespace RingTape.Command

/-! ## Lists of groups -/

/-- A list of arguments splits into groups. -/
inductive Grouped : List String → List Group → Prop where
  | nil : Grouped [] []
  | cons {piece rest : List String} {group : Group} {groups : List Group}
      (hpiece : Spells piece group) (hrest : Grouped rest groups) :
      Grouped (piece ++ rest) (group :: groups)

/-! ## What groups ask for -/

namespace Group

/-- The program that a group names. -/
def source? : Group → Option ProgramSource
  | program source => some source
  | _ => none

/-- The order of transports that a group sets. -/
def order? : Group → Option (List Transport)
  | transports order => some order
  | _ => none

/-- The bound that a group sets for connecting. -/
def connectTimeout? : Group → Option Duration
  | connectTimeout timeout => some timeout
  | _ => none

/-- The bound that a group sets for transfers. -/
def transferTimeout? : Group → Option Duration
  | transferTimeout timeout => some timeout
  | _ => none

/-- The limit on steps that a group sets. -/
def maxSteps? : Group → Option UInt64
  | maxSteps limit => some limit
  | _ => none

/-- The policy that a group sets. -/
def policy? : Group → Option EndPolicy
  | onEnd policy => some policy
  | _ => none

end Group

/-- The programs that groups name. -/
def sources (groups : List Group) : List ProgramSource :=
  groups.filterMap Group.source?

/-- The value that the last group with a value has. -/
def lastOf {α : Type} (value? : Group → Option α) (groups : List Group) : Option α :=
  (groups.filterMap value?).getLast?

/-- **The options that groups ask for.**  There is one program among them.  Of each option
with a value, the last occurrence counts, or else the default. -/
structure Describes (groups : List Group) (options : Options) : Prop where
  source : sources groups = [options.source]
  transports : options.settings.transports =
    (lastOf Group.order? groups).getD Transport.defaultOrder
  connectTimeout : options.settings.dial.connectTimeout = lastOf Group.connectTimeout? groups
  transferTimeout : options.settings.dial.transferTimeout = lastOf Group.transferTimeout? groups
  maxSteps : options.settings.maxSteps = lastOf Group.maxSteps? groups
  onEnd : options.settings.onEnd = (lastOf Group.policy? groups).getD .zero
  dump : options.dump = true ↔ Group.dump ∈ groups
  profile : options.profile = true ↔ Group.profile ∈ groups
  verbose : options.verbose = true ↔ Group.verbose ∈ groups

/-- A list of arguments is accepted with certain options. -/
def Accepts (arguments : List String) (options : Options) : Prop :=
  ∃ groups, Grouped arguments groups ∧ Describes groups options

/-- **The first thing that is wrong** with a list of arguments, if groups come before it among
which there is not yet a second program.  That there is no program is only known at the end. -/
inductive Offence (arguments : List String) : UsageError → Prop where
  | malformed {before rest : List String} {groups : List Group} {error : UsageError}
      (hsplit : arguments = before ++ rest) (hbefore : Grouped before groups)
      (hone : (sources groups).length ≤ 1) (hrest : Malformed rest error) :
      Offence arguments error
  | secondProgram {before piece rest : List String} {groups : List Group}
      {source : ProgramSource} (hsplit : arguments = before ++ (piece ++ rest))
      (hbefore : Grouped before groups) (hone : (sources groups).length = 1)
      (hpiece : Spells piece (.program source)) :
      Offence arguments .secondProgram
  | noProgram {groups : List Group} (hgroups : Grouped arguments groups)
      (hnone : sources groups = []) : Offence arguments .noProgram

variable {arguments before piece rest : List String} {group : Group} {groups : List Group}
  {error : UsageError} {draft : Draft} {options : Options}

theorem Grouped.append_piece (h : Grouped before groups) (hpiece : Spells piece group) :
    Grouped (before ++ piece) (groups ++ [group]) := by
  induction h with
  | nil =>
    have halone := Grouped.cons hpiece .nil
    rwa [List.append_nil] at halone
  | cons hfirst _ ih =>
    rw [List.append_assoc]
    exact .cons hfirst ih

/-! ## Taking groups into account -/

namespace Draft

/-- The draft after groups, if there is no second program among them. -/
def after (draft : Draft) (groups : List Group) : Draft where
  source := draft.source.or (sources groups).head?
  settings :=
    { transports := (lastOf Group.order? groups).getD draft.settings.transports
      dial :=
        { connectTimeout :=
            (lastOf Group.connectTimeout? groups).or draft.settings.dial.connectTimeout
          transferTimeout :=
            (lastOf Group.transferTimeout? groups).or draft.settings.dial.transferTimeout }
      maxSteps := (lastOf Group.maxSteps? groups).or draft.settings.maxSteps
      onEnd := (lastOf Group.policy? groups).getD draft.settings.onEnd }
  dump := draft.dump || decide (Group.dump ∈ groups)
  profile := draft.profile || decide (Group.profile ∈ groups)
  verbose := draft.verbose || decide (Group.verbose ∈ groups)

/-- A second program is refused. -/
theorem add_second {source : ProgramSource} (hsource : draft.source ≠ none) :
    draft.add (.program source) = .error .secondProgram := by
  obtain ⟨first, hfirst⟩ := Option.ne_none_iff_exists'.mp hsource
  rw [add, hfirst]

/-- **Any other group is taken into account.** -/
theorem add_eq_ok (hfirst : draft.source = none ∨ group.source? = none) :
    draft.add group = .ok (draft.after [group]) := by
  cases group with
  | program source =>
    have hnone : draft.source = none := hfirst.resolve_right (by simp [Group.source?])
    simp [add, after, hnone, sources, lastOf, Group.source?, Group.order?, Group.connectTimeout?,
      Group.transferTimeout?, Group.maxSteps?, Group.policy?]
  | _ =>
    simp [add, after, sources, lastOf, Group.source?, Group.order?, Group.connectTimeout?,
      Group.transferTimeout?, Group.maxSteps?, Group.policy?]

@[simp]
theorem after_nil (draft : Draft) : draft.after [] = draft := by
  simp [after, sources, lastOf]

end Draft

theorem lastOf_append {α : Type} (value? : Group → Option α) (front back : List Group) :
    lastOf value? (front ++ back) = (lastOf value? back).or (lastOf value? front) := by
  rw [lastOf, List.filterMap_append, List.getLast?_append]
  rfl

theorem sources_append (front back : List Group) :
    sources (front ++ back) = sources front ++ sources back :=
  List.filterMap_append

theorem sources_singleton (group : Group) : sources [group] = group.source?.toList := by
  cases hsource : group.source? <;> simp [sources, hsource]

/-- **After two parts of a list** is after the one and then the other. -/
theorem Draft.after_append (draft : Draft) (front back : List Group) :
    draft.after (front ++ back) = (draft.after front).after back := by
  simp only [after, lastOf_append, sources_append, List.head?_append, Option.or_assoc,
    Option.getD_or, List.mem_append, Bool.decide_or, Bool.or_assoc]

/-- A draft and groups that have at most one program between them still do once the first
of the groups is taken into account. -/
theorem Draft.sources_after (draft : Draft) (group : Group) (groups : List Group)
    (hone : (draft.source.toList ++ sources (group :: groups)).length ≤ 1) :
    (draft.source = none ∨ group.source? = none) ∧
      ((draft.after [group]).source.toList ++ sources groups).length ≤ 1 := by
  rw [← List.singleton_append, sources_append, sources_singleton] at hone
  rw [after, sources_singleton]
  cases hfirst : draft.source with
  | none =>
    rw [hfirst] at hone
    cases hsource : group.source? <;> simp_all
  | some source =>
    rw [hfirst] at hone
    cases hsource : group.source? with
    | none => simpa [hsource] using hone
    | some second => simp [hsource] at hone

/-- One group of a list is read and taken into account. -/
theorem read_piece (hpiece : Spells piece group) (rest : List String) :
    draft.read (piece ++ rest) =
      match draft.add group with
      | .error e => .error e
      | .ok draft => draft.read rest := by
  obtain ⟨argument, others, rfl⟩ := List.exists_cons_of_ne_nil hpiece.ne_nil
  have hstep := read_cons draft argument (others ++ rest)
  rw [hpiece.readGroup_eq] at hstep
  exact hstep

/-- **Groups are read one after the other**, as long as there is no second program. -/
theorem read_grouped (h : Grouped before groups) (rest : List String)
    (hone : (draft.source.toList ++ sources groups).length ≤ 1) :
    draft.read (before ++ rest) = (draft.after groups).read rest := by
  induction h generalizing draft with
  | nil => rw [Draft.after_nil, List.nil_append]
  | @cons piece others group groups hpiece _ ih =>
    obtain ⟨hfirst, hone'⟩ := draft.sources_after group groups hone
    rw [List.append_assoc, read_piece hpiece, Draft.add_eq_ok hfirst]
    dsimp only
    rw [ih hone', ← Draft.after_append, List.singleton_append]

/-! ## The argument list -/

/-- The groups of a list that has at most one program are read to its end. -/
theorem read_start (h : Grouped before groups) (hone : (sources groups).length ≤ 1)
    (rest : List String) :
    Draft.read {} (before ++ rest) = (({} : Draft).after groups).read rest :=
  read_grouped h rest hone

/-- The options of a draft without a program, after groups with one, are those that the groups
ask for. -/
theorem options_after {source : ProgramSource} (hsource : sources groups = [source]) :
    ∃ options, (({} : Draft).after groups).options = .ok options ∧ Describes groups options := by
  refine ⟨⟨source, (({} : Draft).after groups).settings, (({} : Draft).after groups).dump,
    (({} : Draft).after groups).profile, (({} : Draft).after groups).verbose⟩, ?_, ?_⟩
  · simp [Draft.options, Draft.after, hsource]
  · exact
      { source := hsource
        transports := rfl
        connectTimeout := Option.or_none
        transferTimeout := Option.or_none
        maxSteps := Option.or_none
        onEnd := rfl
        dump := by simp [Draft.after]
        profile := by simp [Draft.after]
        verbose := by simp [Draft.after] }

/-- Groups ask for one thing only. -/
theorem Describes.unique {others : Options} (h : Describes groups options)
    (hothers : Describes groups others) : options = others := by
  have hsource : options.source = others.source :=
    List.singleton_inj.mp (h.source.symm.trans hothers.source)
  have hdump := Bool.eq_iff_iff.mpr (h.dump.trans hothers.dump.symm)
  have hprofile := Bool.eq_iff_iff.mpr (h.profile.trans hothers.profile.symm)
  have hverbose := Bool.eq_iff_iff.mpr (h.verbose.trans hothers.verbose.symm)
  have htransports := h.transports.trans hothers.transports.symm
  have hconnect := h.connectTimeout.trans hothers.connectTimeout.symm
  have htransfer := h.transferTimeout.trans hothers.transferTimeout.symm
  have hsteps := h.maxSteps.trans hothers.maxSteps.symm
  have honEnd := h.onEnd.trans hothers.onEnd.symm
  obtain ⟨_, ⟨_, ⟨_, _⟩, _, _⟩, _, _, _⟩ := options
  obtain ⟨_, ⟨_, ⟨_, _⟩, _, _⟩, _, _, _⟩ := others
  simp_all

/-- **What is accepted is read.** -/
theorem parse_of_accepts (h : Accepts arguments options) :
    Options.parse arguments = .ok options := by
  obtain ⟨groups, hgroups, hdescribes⟩ := h
  have hread := read_start hgroups (by rw [hdescribes.source]; exact Nat.le_refl 1) []
  rw [List.append_nil] at hread
  obtain ⟨others, hoptions, hothers⟩ := options_after hdescribes.source
  rw [Options.parse, hread, Draft.read, hdescribes.unique hothers]
  exact hoptions

/-- **What offends the grammar is refused**, with the error of the first offence. -/
theorem parse_of_offence (h : Offence arguments error) :
    Options.parse arguments = .error error := by
  rw [Options.parse]
  cases h with
  | @malformed before rest _ _ hsplit hbefore hone hrest =>
    have hsome : rest ≠ [] := by
      rintro rfl
      cases hrest
    obtain ⟨argument, rest, rfl⟩ := List.exists_cons_of_ne_nil hsome
    rw [hsplit, read_start hbefore hone, read_cons, hrest.readGroup_eq]
  | @secondProgram before piece rest groups source hsplit hbefore hone hpiece =>
    have hfirst : (({} : Draft).after groups).source ≠ none := by
      obtain ⟨first, hfirst⟩ := List.length_eq_one_iff.mp hone
      simp [Draft.after, hfirst]
    rw [hsplit, read_start hbefore (Nat.le_of_eq hone), read_piece hpiece, Draft.add_second hfirst]
  | noProgram hgroups hnone =>
    have hread := read_start hgroups (by simp [hnone]) []
    rw [List.append_nil] at hread
    rw [hread, Draft.read]
    simp [Draft.options, Draft.after, hnone]

/-- What comes after groups without a second program goes on with groups to the end, or
there is something wrong with it. -/
theorem grouped_or_offence (hbefore : Grouped before groups) (hone : (sources groups).length ≤ 1)
    (rest : List String) :
    (∃ groups, Grouped (before ++ rest) groups ∧ (sources groups).length ≤ 1) ∨
      ∃ error, Offence (before ++ rest) error := by
  induction hlength : rest.length using Nat.strong_induction_on generalizing before groups rest with
  | _ length ih =>
    by_cases hend : rest = []
    · subst hend
      rw [List.append_nil]
      exact .inl ⟨groups, hbefore, hone⟩
    · rcases spells_or_malformed hend with ⟨piece, group, others, hpiece, rfl⟩ | ⟨error, hrest⟩
      · by_cases hsecond : (sources (groups ++ [group])).length ≤ 1
        · have hshorter : others.length < length := by
            have hpos := List.length_pos_iff.mpr hpiece.ne_nil
            rw [List.length_append] at hlength
            omega
          rw [← List.append_assoc]
          exact ih others.length hshorter (hbefore.append_piece hpiece) hsecond others rfl
        · -- the group is the second to name a program
          rw [sources_append, sources_singleton, List.length_append] at hsecond
          cases group with
          | program source =>
            have hfirst : (sources groups).length = 1 := by
              simp only [Group.source?, Option.toList_some, List.length_singleton] at hsecond
              omega
            exact .inr ⟨_, .secondProgram rfl hbefore hfirst hpiece⟩
          | _ => exact absurd hone hsecond
      · exact .inr ⟨error, .malformed rfl hbefore hone hrest⟩

/-- **A list is accepted, or there is something wrong with it.** -/
theorem accepts_or_offence (arguments : List String) :
    (∃ options, Accepts arguments options) ∨ ∃ error, Offence arguments error := by
  rcases grouped_or_offence .nil (Nat.zero_le 1) arguments with ⟨groups, hgroups, hone⟩ | hoffence
  · rw [List.nil_append] at hgroups
    by_cases hnone : sources groups = []
    · exact .inr ⟨_, .noProgram hgroups hnone⟩
    · have hlength : (sources groups).length = 1 := by
        have hpos := List.length_pos_iff.mpr hnone
        omega
      obtain ⟨source, hsource⟩ := List.length_eq_one_iff.mp hlength
      obtain ⟨options, -, hdescribes⟩ := options_after hsource
      exact .inl ⟨options, groups, hgroups, hdescribes⟩
  · exact .inr hoffence

/-! ## The wording of a missing program -/

/-- Texts with another first character differ. -/
theorem append_ne_of_head {a b : String} {c d : Char} (rest : String)
    (ha : a.toList.head? = some c) (hb : b.toList.head? = some d) (hne : c ≠ d) :
    a ++ rest ≠ b := by
  rintro rfl
  rw [String.toList_append, List.head?_append, ha] at hb
  exact hne (Option.some.inj hb)

/-- Texts with another last character differ. -/
theorem append_ne_of_getLast {a b : String} {c d : Char} (front : String)
    (ha : a.toList.getLast? = some c) (hb : b.toList.getLast? = some d) (hne : c ≠ d) :
    front ++ a ≠ b := by
  rintro rfl
  rw [String.toList_append, List.getLast?_append, ha] at hb
  exact hne (Option.some.inj hb)

/-- **No other error is worded** like that of a missing program. -/
theorem message_eq_iff : error.message = "No program given" ↔ error = .noProgram := by
  have hfirst : "No program given".toList.head? = some 'N' := rfl
  have hlast : "No program given".toList.getLast? = some 'n' := rfl
  constructor
  · intro h
    cases error with
    | noProgram => rfl
    | missingValue flag => exact absurd h (append_ne_of_getLast _ rfl hlast (by decide))
    | badDuration flag text => exact absurd h (append_ne_of_getLast _ rfl hlast (by decide))
    | unknownTransport e => exact absurd h (append_ne_of_getLast _ rfl hlast (by decide))
    | unknownPolicy e => exact absurd h (append_ne_of_getLast _ rfl hlast (by decide))
    | badStepCount text => exact absurd h (append_ne_of_head _ rfl hfirst (by decide))
    | unexpected argument => exact absurd h (append_ne_of_head _ rfl hfirst (by decide))
    | noTransports => exact absurd h (by decide)
    | secondProgram => exact absurd h (by decide)
  · rintro rfl
    rfl

/-! ## What is read -/

/-- **Arguments are read by groups, and by nothing else.**  A list is accepted with certain
options exactly if it splits into groups that ask for them, with one program among these;
the last occurrence of an option with a value counts.  And it is refused with a certain
error exactly if that is the error of the first thing in it that is malformed or is a
second program or, if there is no such thing, no program has been named.  Only the last is
worded as a missing program. -/
theorem arguments_read_by_groups (arguments : List String) :
    (∀ options, Options.parse arguments = .ok options ↔
      ∃ groups, Grouped arguments groups ∧ Describes groups options) ∧
    (∀ error, Options.parse arguments = .error error ↔ Offence arguments error) ∧
    ∀ error : UsageError, error.message = "No program given" ↔ error = .noProgram := by
  refine ⟨fun options => ⟨fun hparse => ?_, parse_of_accepts⟩,
    fun error => ⟨fun hparse => ?_, parse_of_offence⟩, fun _ => message_eq_iff⟩
  · rcases accepts_or_offence arguments with ⟨others, haccepts⟩ | ⟨error, hoffence⟩
    · have hsame := hparse.symm.trans (parse_of_accepts haccepts)
      rwa [Except.ok.inj hsame]
    · have hcontrary := hparse.symm.trans (parse_of_offence hoffence)
      cases hcontrary
  · rcases accepts_or_offence arguments with ⟨options, haccepts⟩ | ⟨other, hoffence⟩
    · have hcontrary := hparse.symm.trans (parse_of_accepts haccepts)
      cases hcontrary
    · have hsame := hparse.symm.trans (parse_of_offence hoffence)
      rwa [Except.error.inj hsame]

example : Options.parse ["-e", "--dump", "--max-steps", "5", "--max-steps", "+07"] =
    .ok { source := .inline "--dump", settings := { maxSteps := some 7 },
          dump := false, profile := false, verbose := false } := rfl

end RingTape.Command
