import TreeSchema.CommandLine.Request
import TreeSchema.Proofs.Computation

/-!
# Following arguments

An argument without a dash in front is an operand, whatever the scope. How an option is followed is
said by two equations, one for an option with all it takes and one for an option that takes the
operand after it for its value; a check of the standard input is what comes out of them
(`Request.ofArguments_check_stdin`). To ask for details in front of the other arguments changes
nothing about how these are followed (`Settings.follow_detailed`), so it changes what is asked for
in that one respect only (`Request.ofArguments_cons_verbose`).

Two dialects of the command line are distinguished, which differ in what the characters attached to
an option stand for. In the earlier one an attached separator is no value, and so an option may be
followed without any; a check can then be asked for without a schema. Whatever is proved here of
both does not look into this: the equations begin where the uses of options have been found. In the
later dialect every option that takes a value has one (`Use.IsGiven`), and every check has a schema
(`Request.schema_ne_none`).

To follow arguments is a recursion on what is left of them, in which each step uses an option,
leaves an argument that is not recognized, or takes a command or a file. What each of these keeps is
kept by the whole (`Settings.follow_keeps`). To be told in detail is no such property but a change
of the settings, and the steps commute with it.

The arguments are classified before any of them is followed, so an error in the last of them comes
before everything that the first ones ask for. The equations for the classification are for that
reason apart from those for following.
-/

namespace TreeSchema.CommandLine

/-! ## Operands and options

What an argument is depends on its first characters, and on the options that there are. -/

namespace Argument

variable {scope : Scope} {text : String}

/-- An argument without a dash in front is an operand. -/
theorem ofText_of_head? (h : text.toList.head? ≠ some '-') (scope : Scope) :
    ofText scope text = .ok (.operand text) := by
  unfold ofText
  dsimp only
  cases hcs : text.toList with
  | nil => rfl
  | cons c cs =>
    have hc : c ≠ '-' := fun hc => h (by rw [hcs, hc]; rfl)
    split
    · rename_i heq
      cases heq
      exact absurd rfl hc
    · rfl

/-- One argument after another. -/
theorem ofTexts_cons {a : Argument} (hname : text ≠ "--") (h : ofText scope text = .ok a)
    (texts : List String) : ofTexts scope (text :: texts) = (ofTexts scope texts).map (a :: ·) := by
  rw [ofTexts, if_neg hname, h]
  cases ofTexts scope texts <;> rfl

end Argument

namespace Settings

variable {d : Dialect} {scope : Scope} {s : Settings} {text name : String} {o : Switch}
  {attached : Attachment} {asked : Uses}

/-- An option with all it takes. -/
theorem follow_option (h : usesOfAttached d scope name o attached = .ok asked)
    (hwanting : asked.wanting = none) (rest : List Argument) :
    follow d scope s (.option text name o attached :: rest)
      = s.useAll d scope asked.uses asked.unrecognized >>= fun t => follow d scope t rest := by
  obtain ⟨uses, wanting, unrecognized⟩ := asked
  cases hwanting
  rw [follow, h]
  rfl

/-- An option that takes the next operand for its value. -/
theorem follow_option_operand {last : Switch}
    (h : usesOfAttached d scope name o attached = .ok asked) (hwanting : asked.wanting = some last)
    (value : String) (after : List Argument) :
    follow d scope s (.option text name o attached :: .operand value :: after)
      = s.useAll d scope (asked.uses ++ [⟨last, some value⟩]) none
          >>= fun t => follow d scope t after := by
  obtain ⟨uses, wanting, unrecognized⟩ := asked
  cases hwanting
  rw [follow, h]
  rfl

end Settings

/-! ## Requests

The settings of the program and those of its command are found one after the other; arguments that
neither recognizes are told together at the end. -/

/-- What the settings of the program ask for, and the arguments that its command leaves. -/
def Settings.action (d : Dialect) (s : Settings) : Except Stop (Action × List String) :=
  match s.command with
  | none => .ok (.overview, [])
  | some (name, rest) =>
    match Command.ofName? name with
    | some c => Request.ofCommand d c rest
    | none => .error (.usage .program (.unknownCommand name))

namespace Request

/-- The request that the settings of the program amount to. -/
def ofSettings (d : Dialect) (s : Settings) : Except Stop Request := do
  let (action, more) ← s.action d
  if (s.unrecognized ++ more).isEmpty then .ok ⟨s.verbose, action⟩
  else .error (.usage .program (.unrecognized (s.unrecognized ++ more)))

/-- A request is what the settings of the program amount to. -/
theorem ofArguments_eq (d : Dialect) (texts : List String) :
    ofArguments d texts = Settings.ofTexts d .program {} texts >>= ofSettings d := by
  unfold ofArguments
  congr 1
  funext s
  unfold ofSettings Settings.action
  cases s.command with
  | none => rfl
  | some p =>
    dsimp only
    cases Command.ofName? p.1 <;> rfl

/-- A name that is not the separator is the value of an option in both dialects. -/
theorem valueOf_eq_some {name : String} (hname : name ≠ "--") (d : Dialect) (o : Switch) :
    Settings.valueOf d ⟨o, some name⟩ = some name := by
  cases d with
  | earlier => simp [Settings.valueOf, hname]
  | later => rfl

/-- **A check of the standard input**, against a schema whose path has no dash in front. -/
theorem ofArguments_check_stdin (d : Dialect) {name : String} (h : name.toList.head? ≠ some '-') :
    ofArguments d ["check", "--schema", name, "--stdin"]
      = .ok ⟨false, .check ⟨some name, none, true, none⟩⟩ := by
  have hname : name ≠ "--" := fun heq => h (heq ▸ rfl)
  have hprogram : Settings.ofTexts d .program {} ["check", "--schema", name, "--stdin"]
      = .ok { command := some ("check", ["--schema", name, "--stdin"]) } := by
    have hcheck : Argument.ofText .program "check" = .ok (.operand "check") := rfl
    have hschema : Argument.ofText .program "--schema" = .ok (.unknown "--schema") := rfl
    have hstdin : Argument.ofText .program "--stdin" = .ok (.unknown "--stdin") := rfl
    rw [Settings.ofTexts, Argument.ofTexts_cons (by decide) hcheck,
      Argument.ofTexts_cons (by decide) hschema,
      Argument.ofTexts_cons hname (Argument.ofText_of_head? h _),
      Argument.ofTexts_cons (by decide) hstdin]
    change Settings.follow d .program {} _ = _
    rw [Settings.follow]
    rfl
  have hcheck : Settings.ofTexts d (.command .check) { fileOpen := true }
        ["--schema", name, "--stdin"]
      = .ok { fileOpen := true, schema := some (some name), stdin := true } := by
    have hschema : Argument.ofText (.command .check) "--schema"
        = .ok (.option "--schema" "--schema" .schema .nothing) := rfl
    have hstdin : Argument.ofText (.command .check) "--stdin"
        = .ok (.option "--stdin" "--stdin" .stdin .nothing) := rfl
    rw [Settings.ofTexts, Argument.ofTexts_cons (by decide) hschema,
      Argument.ofTexts_cons hname (Argument.ofText_of_head? h _),
      Argument.ofTexts_cons (by decide) hstdin]
    change Settings.follow d (.command .check) _
      [.option "--schema" "--schema" .schema .nothing, .operand name,
        .option "--stdin" "--stdin" .stdin .nothing] = _
    rw [Settings.follow_option_operand rfl rfl]
    change Settings.follow d (.command .check)
      { fileOpen := true, schema := some (Settings.valueOf d ⟨.schema, some name⟩) }
      [.option "--stdin" "--stdin" .stdin .nothing] = _
    rw [valueOf_eq_some hname, Settings.follow_option rfl rfl]
    change Settings.follow d (.command .check) _ [] = _
    rw [Settings.follow]
    rfl
  rw [ofArguments_eq, hprogram]
  change (ofCommand d .check ["--schema", name, "--stdin"] >>= _) = _
  rw [ofCommand, hcheck]
  rfl

end Request

/-! ## What following arguments keeps

A use of an option that takes a value has been given one, in whatever way it was asked for: by the
characters attached to it or by the operand after it. -/

/-- Whether an option that takes a value has one. -/
def Use.IsGiven (u : Use) : Prop := u.switch.takesValue = true → u.value ≠ none

/-- An option that takes a value and has nothing attached waits for an operand, and is not used
before. -/
theorem isGiven_of_usesOfBare (o : Switch) : ∀ u ∈ (usesOfBare o).uses, u.IsGiven := by
  unfold usesOfBare
  split
  · exact List.forall_mem_nil _
  · exact List.forall_mem_singleton.2 fun htakes => absurd htakes ‹_›

/-- The characters behind an equals sign are the value. -/
theorem isGiven_of_usesOfEquals {o : Switch} {value : List Char} {asked : Uses}
    (h : usesOfEquals o value = .ok asked) : ∀ u ∈ asked.uses, u.IsGiven := by
  unfold usesOfEquals at h
  split at h
  · cases h
    exact List.forall_mem_singleton.2 fun _ hnone => by cases hnone
  · cases h

/-- Characters attached to short options are options again, or the value of the last one. -/
theorem isGiven_of_usesOf {d : Dialect} {scope : Scope} {o : Switch} {cs : List Char} {asked : Uses}
    (h : usesOf d scope o cs = .ok asked) : ∀ u ∈ asked.uses, u.IsGiven := by
  induction cs generalizing o asked with
  | nil =>
    rw [usesOf] at h
    cases h
    exact isGiven_of_usesOfBare o
  | cons c cs ih =>
    unfold usesOf at h
    dsimp only at h
    split at h
    · cases h
      exact List.forall_mem_singleton.2 fun _ hnone => by cases hnone
    · have hfirst : Use.IsGiven { switch := o } := fun htakes => absurd htakes ‹_›
      split at h
      · cases h
      · split at h
        · cases h
        · cases h
          exact List.forall_mem_singleton.2 hfirst
        · split at h
          all_goals
            obtain ⟨more, hmore, h⟩ := bind_eq_ok_iff.1 h
            cases h
            refine List.forall_mem_cons.2 ⟨hfirst, ?_⟩
          · exact isGiven_of_usesOfEquals hmore
          · exact ih hmore

/-- **Whatever an argument asks for, values are given** to the options that take one. -/
theorem isGiven_of_usesOfAttached {d : Dialect} {scope : Scope} {name : String} {o : Switch}
    {attached : Attachment} {asked : Uses}
    (h : usesOfAttached d scope name o attached = .ok asked) : ∀ u ∈ asked.uses, u.IsGiven := by
  unfold usesOfAttached at h
  split at h
  · cases h
    exact isGiven_of_usesOfBare o
  · exact isGiven_of_usesOf h
  · dsimp only at h
    split at h
    · exact isGiven_of_usesOf h
    · exact isGiven_of_usesOfEquals h

namespace Settings

variable {d : Dialect} {scope : Scope} {P : Settings → Prop}

/-- What every use of an option keeps is kept when several are followed. -/
theorem foldlM_use_keeps (huse : ∀ s u s', u.IsGiven → P s → use d scope s u = .ok s' → P s')
    {s s' : Settings} (hs : P s) {uses : List Use} (hgiven : ∀ u ∈ uses, u.IsGiven)
    (h : uses.foldlM (use d scope) s = .ok s') : P s' := by
  induction uses generalizing s with
  | nil =>
    cases h
    exact hs
  | cons u uses ih =>
    obtain ⟨hu, huses⟩ := List.forall_mem_cons.1 hgiven
    rw [List.foldlM_cons] at h
    obtain ⟨t, ht, h⟩ := bind_eq_ok_iff.1 h
    exact ih (huse _ _ _ hu hs ht) huses h

/-- What every use keeps is kept by the uses of one argument, with a part that is not recognized or
without. -/
theorem useAll_keeps (huse : ∀ s u s', u.IsGiven → P s → use d scope s u = .ok s' → P s')
    (hleave : ∀ (s : Settings) text, P s → P (s.leave text)) {s s' : Settings} (hs : P s)
    {uses : List Use} (hgiven : ∀ u ∈ uses, u.IsGiven) {unrecognized : Option String}
    (h : s.useAll d scope uses unrecognized = .ok s') : P s' := by
  obtain ⟨t, ht, h⟩ := bind_eq_ok_iff.1 h
  have hfold := foldlM_use_keeps huse hs hgiven ht
  cases h
  cases unrecognized with
  | none => exact hfold
  | some text => exact hleave t text hfold

/-- **What every single step keeps is kept when arguments are followed.** -/
theorem follow_keeps (huse : ∀ s u s', u.IsGiven → P s → use d scope s u = .ok s' → P s')
    (hleave : ∀ (s : Settings) text, P s → P (s.leave text))
    (hcommand : ∀ (s : Settings) name rest, P s → P (s.takeCommand name rest))
    (hfile : ∀ (s : Settings) file, P s → P (s.takeFile file)) {s s' : Settings} (hs : P s)
    {as : List Argument} (h : follow d scope s as = .ok s') : P s' := by
  -- A value that is taken from the following arguments, and a separator that is dropped, make the
  -- rest more than one argument shorter. So the induction is on the number of arguments and not on
  -- the list.
  induction hlength : as.length using Nat.strongRecOn generalizing s as with
  | ind n ih =>
    subst hlength
    cases as with
    | nil =>
      rw [follow] at h
      cases h
      exact hs
    | cons a rest =>
      have hrest : ∀ {t : Settings}, P t → follow d scope t rest = .ok s' → P s' :=
        fun ht h => ih rest.length (Nat.lt_succ_self _) ht h rfl
      cases a with
      | unknown text =>
        rw [follow] at h
        exact hrest (hleave s text hs) h
      | separator =>
        rw [follow] at h
        split at h
        · cases h
          split
          · exact hleave s "--" hs
          · exact hcommand s "--" rest hs
        · split at h
          · exact hrest (hleave s "--" hs) h
          · refine ih _ ?_ (hfile s _ hs) h rfl
            rw [List.length_tail, List.length_cons]
            omega
      | operand text =>
        rw [follow] at h
        split at h
        · cases h
          exact hcommand s text rest hs
        · split at h
          · exact hrest (hleave s text hs) h
          · exact ih _ (Nat.lt_succ_of_le (length_dropSeparator_le rest)) (hfile s _ hs) h rfl
      | option text name o attached =>
        rw [follow] at h
        obtain ⟨asked, hasked, h⟩ := bind_eq_ok_iff.1 h
        have hgiven := isGiven_of_usesOfAttached (mapError_eq_ok_iff.1 hasked)
        split at h
        · obtain ⟨t, ht, h⟩ := bind_eq_ok_iff.1 h
          exact hrest (useAll_keeps huse hleave hs hgiven ht) h
        · split at h
          · rename_i value after _
            obtain ⟨t, ht, h⟩ := bind_eq_ok_iff.1 h
            refine ih after.length ?_ (useAll_keeps huse hleave hs ?_ ht) h rfl
            · rw [List.length_cons, List.length_cons]
              omega
            · exact List.forall_mem_append.2
                ⟨hgiven, List.forall_mem_singleton.2 fun _ hnone => by cases hnone⟩
          · cases h

/-- In the later dialect the option for the schema is never followed without a value. -/
theorem schema_ne_of_follow {s s' : Settings} (hs : s.schema ≠ some none) {as : List Argument}
    (h : follow .later scope s as = .ok s') : s'.schema ≠ some none := by
  refine follow_keeps (P := fun s => s.schema ≠ some none) (fun s u s' hgiven hs h => ?_)
    (fun _ _ hs => hs) (fun _ _ _ hs => hs) (fun _ _ hs => hs) hs h
  unfold use at h
  split at h
  · cases h
  · cases h
    exact hs
  · cases h
    exact hs
  · rename_i hswitch
    cases h
    exact fun hnone => hgiven (hswitch ▸ rfl) (Option.some.inj hnone)
  · split at h
    · cases h
      exact hs
    · split at h
      · cases h
        exact hs
      · cases h

end Settings

namespace Request

/-- The command for a check asks for the option before it makes a request. -/
theorem schema_ne_none_of_ofCommand {command : Command} {texts more : List String}
    {c : CheckRequest} (h : ofCommand .later command texts = .ok (.check c, more)) :
    c.schema ≠ none := by
  cases command with
  | types =>
    obtain ⟨s, -, h⟩ := bind_eq_ok_iff.1 h
    cases h
  | check =>
    obtain ⟨s, hs, h⟩ := bind_eq_ok_iff.1 h
    obtain ⟨as, -, hfollow⟩ := bind_eq_ok_iff.1 hs
    have hschema := Settings.schema_ne_of_follow (fun h => by cases h) hfollow
    split at h
    · cases h
    · rename_i hsome
      cases h
      exact fun hnone => hschema (hsome.trans (congrArg some hnone))

/-- **In the later dialect every check has a schema.** -/
theorem schema_ne_none {texts : List String} {verbose : Bool} {c : CheckRequest}
    (h : ofArguments .later texts = .ok ⟨verbose, .check c⟩) : c.schema ≠ none := by
  rw [ofArguments_eq] at h
  obtain ⟨s, -, h⟩ := bind_eq_ok_iff.1 h
  obtain ⟨⟨action, more⟩, haction, h⟩ := bind_eq_ok_iff.1 h
  dsimp only at h
  split at h
  · cases h
    unfold Settings.action at haction
    split at haction
    · cases haction
    · split at haction
      · exact schema_ne_none_of_ofCommand haction
      · cases haction
  · cases h

end Request

/-! ## Details

The option changes the settings in a field that nothing else looks at while arguments are followed.
-/

/-- Settings under which a run is told in detail. -/
def Settings.detailed (s : Settings) : Settings := { s with verbose := true }

namespace Settings

variable {d : Dialect} {scope : Scope}

/-- One use of an option. -/
theorem use_detailed (s : Settings) (u : Use) :
    use d scope s.detailed u = (use d scope s u).map detailed := by
  unfold use
  cases u.switch with
  | format =>
    dsimp only
    split
    · rfl
    · split <;> rfl
  | _ => rfl

/-- Several uses. -/
theorem foldlM_use_detailed (uses : List Use) (s : Settings) :
    uses.foldlM (use d scope) s.detailed = (uses.foldlM (use d scope) s).map detailed := by
  induction uses generalizing s with
  | nil => rfl
  | cons u uses ih =>
    rw [List.foldlM_cons, List.foldlM_cons, use_detailed]
    cases use d scope s u with
    | error stop => rfl
    | ok s' => exact ih s'

/-- The uses of one argument. -/
theorem useAll_detailed (s : Settings) (uses : List Use) (unrecognized : Option String) :
    s.detailed.useAll d scope uses unrecognized
      = (s.useAll d scope uses unrecognized).map detailed := by
  unfold useAll
  rw [foldlM_use_detailed]
  cases uses.foldlM (use d scope) s with
  | error stop => rfl
  | ok s' => cases unrecognized <;> rfl

/-- What follows the uses of options does not depend on it either. -/
theorem useAll_bind_detailed {f : Settings → Except Stop Settings}
    (hf : ∀ t : Settings, f t.detailed = (f t).map detailed) (s : Settings) (uses : List Use)
    (unrecognized : Option String) :
    s.detailed.useAll d scope uses unrecognized >>= f
      = (s.useAll d scope uses unrecognized >>= f).map detailed := by
  rw [useAll_detailed]
  cases s.useAll d scope uses unrecognized with
  | error stop => rfl
  | ok t => exact hf t

/-- **Following arguments does not depend on whether the run is told in detail.** -/
theorem follow_detailed (s : Settings) (as : List Argument) :
    follow d scope s.detailed as = (follow d scope s as).map detailed := by
  -- On the number of arguments left: an option may take the one after it, a file a separator.
  induction hlength : as.length using Nat.strongRecOn generalizing s as with
  | ind n ih =>
    subst hlength
    cases as with
    | nil => rw [follow, follow, Except.map]
    | cons a rest =>
      have hrest : ∀ t : Settings,
          follow d scope t.detailed rest = (follow d scope t rest).map detailed :=
        fun t => ih rest.length (Nat.lt_succ_self _) t rest rfl
      cases a with
      | unknown text =>
        rw [follow, follow]
        exact hrest (s.leave text)
      | separator =>
        rw [follow, follow]
        split
        · split <;> rfl
        · change (if !s.fileOpen then _ else _) = _
          split
          · exact hrest (s.leave "--")
          · refine ih _ ?_ (s.takeFile _) rest.tail rfl
            rw [List.length_tail, List.length_cons]
            omega
      | operand text =>
        rw [follow, follow]
        split
        · rfl
        · change (if !s.fileOpen then _ else _) = _
          split
          · exact hrest (s.leave text)
          · exact ih _ (Nat.lt_succ_of_le (length_dropSeparator_le rest)) (s.takeFile _) _ rfl
      | option text name o attached =>
        rw [follow, follow]
        cases (usesOfAttached d scope name o attached).mapError (Stop.usage scope) with
        | error stop => rfl
        | ok asked =>
          obtain ⟨uses, _ | last, unrecognized⟩ := asked
          · exact useAll_bind_detailed hrest s uses unrecognized
          · cases rest with
            | nil => rfl
            | cons b after =>
              cases b with
              | operand value =>
                refine useAll_bind_detailed (fun t => ?_) s (uses ++ [⟨last, some value⟩]) none
                refine ih after.length ?_ t after rfl
                rw [List.length_cons, List.length_cons]
                omega
              | _ => rfl

/-- The option in front of the arguments of the program. -/
theorem ofTexts_cons_verbose {flag : String} (hflag : flag ∈ Switch.verbose.names)
    (texts : List String) :
    ofTexts d .program {} (flag :: texts) = (ofTexts d .program {} texts).map detailed := by
  have hother : flag ≠ "--" := fun h => absurd (h ▸ hflag) (by decide)
  have hflags : flag = "--verbose" ∨ flag = "-v" := by simpa [Switch.names] using hflag
  have hread : Argument.ofText .program flag = .ok (.option flag flag .verbose .nothing) := by
    obtain rfl | rfl := hflags
    · rfl
    · rfl
  have huses : usesOfAttached d .program flag .verbose .nothing
      = .ok { uses := [{ switch := .verbose }] } := rfl
  unfold ofTexts
  rw [Argument.ofTexts_cons hother hread]
  cases Argument.ofTexts .program texts with
  | error fault => rfl
  | ok as =>
    change follow d .program {} (.option flag flag .verbose .nothing :: as)
      = (follow d .program {} as).map detailed
    rw [follow_option huses rfl]
    exact follow_detailed {} as

end Settings

namespace Request

/-- A request that is to be told in detail. -/
def detailed (r : Request) : Request := { r with verbose := true }

/-- What settings amount to. -/
theorem ofSettings_detailed (d : Dialect) (s : Settings) :
    ofSettings d s.detailed = (ofSettings d s).map detailed := by
  unfold ofSettings
  rw [show s.detailed.action d = s.action d from rfl]
  cases s.action d with
  | error stop => rfl
  | ok p =>
    change (if (s.unrecognized ++ p.2).isEmpty then _ else _)
      = (if (s.unrecognized ++ p.2).isEmpty then _ else _ : Except Stop Request).map detailed
    split <;> rfl

/-- **To ask for details in front** changes what is asked for in that respect only. -/
theorem ofArguments_cons_verbose (d : Dialect) {flag : String}
    (hflag : flag ∈ Switch.verbose.names) (texts : List String) :
    ofArguments d (flag :: texts) = (ofArguments d texts).map detailed := by
  rw [ofArguments_eq, ofArguments_eq, Settings.ofTexts_cons_verbose hflag]
  cases Settings.ofTexts d .program {} texts with
  | error stop => rfl
  | ok s => exact ofSettings_detailed d s

end Request

end TreeSchema.CommandLine
