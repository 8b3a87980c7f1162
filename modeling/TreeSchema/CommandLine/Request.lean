import TreeSchema.CommandLine.Argument
import TreeSchema.Format

/-!
# Requests

A command line asks for one thing (`Request.ofArguments`), unless it asks for help or is faulty
(`Stop`). Arguments are taken in order, and what they ask for is done in order too: help that comes
before a fault is given. The first operand of the program is its command, which all arguments after
it belong to.

One argument can use several options, since short names may be glued together (`usesOf`). All of it
is looked at before any of its options is followed, so a fault at its end is told even if help was
asked for at its start. What is left over of an argument is no fault by itself: it is told of after
everything else was followed, if it comes to that.
-/

namespace TreeSchema.CommandLine

/-- What a check is asked to do. In the earlier dialect an option that was given the separator for
its value has none. -/
structure CheckRequest where
  schema : Option String
  file : Option String
  stdin : Bool
  format : Option Format
  deriving DecidableEq

/-- What the program is asked to do. -/
inductive Action where
  /-- Nothing. -/
  | overview
  | types
  | check (c : CheckRequest)
  deriving DecidableEq

/-- What a command line asks for, and whether the run is to be told in detail. -/
structure Request where
  verbose : Bool
  action : Action
  deriving DecidableEq

/-- Why a command line is not followed. -/
inductive Stop where
  | help (scope : Scope)
  | usage (scope : Scope) (fault : UsageFault)
  deriving DecidableEq

/-- One use of an option. -/
structure Use where
  switch : Switch
  value : Option String := none
  deriving DecidableEq

/-- What one argument asks for: uses of options, an option that still wants the next argument for
its value, and what is left over. -/
structure Uses where
  uses : List Use
  wanting : Option Switch := none
  unrecognized : Option String := none
  deriving DecidableEq

/-- The use of an option with nothing attached to it. -/
def usesOfBare (o : Switch) : Uses :=
  if o.takesValue then { uses := [], wanting := some o } else { uses := [{ switch := o }] }

/-- The use of an option with a value after an equals sign. -/
def usesOfEquals (o : Switch) (value : List Char) : Except UsageFault Uses :=
  if o.takesValue then .ok { uses := [⟨o, some (String.ofList value)⟩] }
  else .error (.valueIgnored o (String.ofList value))

/-- The uses of options in an argument with characters glued to a short name. They are the value of
its option, or else the first one of them is a short name again. The last option of the argument may
have nothing attached to it, or a value after an equals sign. -/
def usesOf (d : Dialect) (scope : Scope) (o : Switch) : List Char → Except UsageFault Uses
  | [] => .ok (usesOfBare o)
  | c :: cs =>
    let attached := String.ofList (c :: cs)
    if o.takesValue then .ok { uses := [⟨o, some attached⟩] }
    else if c = '-' then .error (.valueIgnored o attached)
    else
      match scope.names.lookup (String.ofList ['-', c]), d with
      | none, .earlier => .error (.valueIgnored o attached)
      | none, .later =>
        .ok { uses := [{ switch := o }], unrecognized := some (String.ofList ('-' :: c :: cs)) }
      | some next, _ => do
        let more ← match d, cs with
          | .later, '=' :: value => usesOfEquals next value
          | _, _ => usesOf d scope next cs
        return { more with uses := { switch := o } :: more.uses }

/-- The uses of options in an argument that names an option. -/
def usesOfAttached (d : Dialect) (scope : Scope) (name : String) (o : Switch) :
    Attachment → Except UsageFault Uses
  | .nothing => .ok (usesOfBare o)
  | .glued value => usesOf d scope o value
  | .byEquals value =>
    let isShort := name.toList[1]? ≠ some '-'
    if d = .earlier ∧ isShort ∧ value ≠ [] then usesOf d scope o value else usesOfEquals o value

/-- What arguments have asked for so far. -/
structure Settings where
  verbose : Bool := false
  stdin : Bool := false
  /-- The schema, if the option was given. -/
  schema : Option (Option String) := none
  format : Option Format := none
  file : Option String := none
  /-- Whether an operand may still be the file. -/
  fileOpen : Bool := false
  /-- The command and the arguments after it. -/
  command : Option (String × List String) := none
  unrecognized : List String := []

namespace Settings

/-- The value of an option. -/
def valueOf (d : Dialect) (u : Use) : Option String :=
  match d with
  | .earlier => u.value.filter (· ≠ "--")
  | .later => u.value

/-- Follows one use of an option. -/
def use (d : Dialect) (scope : Scope) (s : Settings) (u : Use) : Except Stop Settings :=
  match u.switch with
  | .help => .error (.help scope)
  | .verbose => .ok { s with verbose := true }
  | .stdin => .ok { s with stdin := true }
  | .schema => .ok { s with schema := some (valueOf d u) }
  | .format =>
    match valueOf d u with
    | none => .ok { s with format := none }
    | some name =>
      match Format.ofName? name with
      | some f => .ok { s with format := some f }
      | none => .error (.usage scope (.unknownFormat name))

/-- Leaves an argument to the fault of what nobody recognizes. -/
def leave (s : Settings) (text : String) : Settings :=
  { s with unrecognized := s.unrecognized ++ [text] }

/-- Takes the command, and with it all arguments left. -/
def takeCommand (s : Settings) (name : String) (rest : List Argument) : Settings :=
  { s with command := some (name, rest.map Argument.text) }

/-- Takes the file. No other operand may be it. -/
def takeFile (s : Settings) (file : Option String) : Settings :=
  { s with file, fileOpen := false }

/-- Arguments without a separator in front. -/
def dropSeparator : List Argument → List Argument
  | .separator :: as => as
  | as => as

/-- What is left is not longer. -/
theorem length_dropSeparator_le (as : List Argument) : (dropSeparator as).length ≤ as.length := by
  unfold dropSeparator
  split <;> simp

/-- Follows uses of options in order, and leaves what is left over beside them. -/
def useAll (d : Dialect) (scope : Scope) (s : Settings) (uses : List Use)
    (unrecognized : Option String) : Except Stop Settings := do
  let s ← uses.foldlM (use d scope) s
  return unrecognized.elim s s.leave

/-- Follows the arguments of a scope. A separator beside the file counts as nothing; after one there
are operands only. -/
def follow (d : Dialect) (scope : Scope) (s : Settings) : List Argument → Except Stop Settings
  | [] => .ok s
  | .option _ name o attached :: rest => do
    let asked ← (usesOfAttached d scope name o attached).mapError (Stop.usage scope)
    match asked.wanting with
    | none => follow d scope (← s.useAll d scope asked.uses asked.unrecognized) rest
    | some last =>
      match rest with
      | .operand value :: after =>
        follow d scope (← s.useAll d scope (asked.uses ++ [⟨last, some value⟩]) none) after
      | _ => throw (.usage scope (.valueMissing last))
  | .unknown text :: rest => follow d scope (s.leave text) rest
  | .separator :: rest =>
    if scope = .program then
      .ok (if rest.isEmpty then s.leave "--" else s.takeCommand "--" rest)
    else if !s.fileOpen then follow d scope (s.leave "--") rest
    else follow d scope (s.takeFile (rest.head?.map Argument.text)) rest.tail
  | .operand text :: rest =>
    if scope = .program then .ok (s.takeCommand text rest)
    else if !s.fileOpen then follow d scope (s.leave text) rest
    else
      have := length_dropSeparator_le rest
      follow d scope (s.takeFile (some text)) (dropSeparator rest)
termination_by as => as.length

/-- Reads and follows the arguments of a scope. -/
def ofTexts (d : Dialect) (scope : Scope) (s : Settings) (texts : List String) :
    Except Stop Settings := do
  s.follow d scope (← (Argument.ofTexts scope texts).mapError (.usage scope))

end Settings

namespace Request

/-- What the arguments of a command ask for. -/
def ofCommand (d : Dialect) (c : Command) (texts : List String) :
    Except Stop (Action × List String) := do
  let scope := Scope.command c
  match c with
  | .types =>
    let s ← Settings.ofTexts d scope {} texts
    return (.types, s.unrecognized)
  | .check =>
    let s ← Settings.ofTexts d scope { fileOpen := true } texts
    match s.schema with
    | none => throw (.usage scope .schemaMissing)
    | some schema => return (.check ⟨schema, s.file, s.stdin, s.format⟩, s.unrecognized)

/-- What a command line asks for. -/
def ofArguments (d : Dialect) (texts : List String) : Except Stop Request := do
  let s ← Settings.ofTexts d .program {} texts
  let (action, more) ←
    match s.command with
    | none => pure (Action.overview, [])
    | some (name, rest) =>
      match Command.ofName? name with
      | some c => ofCommand d c rest
      | none => throw (.usage .program (.unknownCommand name))
  let unrecognized := s.unrecognized ++ more
  if unrecognized.isEmpty then return ⟨s.verbose, action⟩
  else throw (.usage .program (.unrecognized unrecognized))

end Request

end TreeSchema.CommandLine
