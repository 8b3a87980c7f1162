import TreeSchema.CommandLine.Basic
import TreeSchema.Text.Digit
import TreeSchema.Text.Quoted

/-!
# The arguments of a command line

Every argument is an operand, an option of the scope, something that looks like an option but is
none, or the separator, after which all arguments are operands. What an argument is does not depend
on the arguments around it, apart from the separator, so the arguments are read one by one
(`Argument.ofText`) before any of them is followed.

An option may be written by the start of a long name, if no other long name starts that way. What
stands after its name in the same argument is attached to it in one of two ways (`Attachment`):
after an equals sign, or glued to a short name. The two differ once the option takes no value: what
is glued may be short options again, while nothing may follow an equals sign.
-/

namespace TreeSchema.CommandLine

/-- What stands in an argument after the name of an option. -/
inductive Attachment where
  | nothing
  /-- The characters after an equals sign. -/
  | byEquals (value : List Char)
  /-- The characters right after a short name. -/
  | glued (value : List Char)
  deriving DecidableEq

/-- An argument. -/
inductive Argument where
  | operand (text : String)
  | separator
  /-- An option by one of its names, with what is attached to it. -/
  | option (text name : String) (switch : Switch) (attached : Attachment)
  | unknown (text : String)
  deriving DecidableEq

/-- What is wrong with a command line. -/
inductive UsageFault where
  /-- More than one name starts as the argument does. -/
  | ambiguous (text : String) (names : List String)
  | valueMissing (switch : Switch)
  | valueIgnored (switch : Switch) (value : String)
  | unknownFormat (value : String)
  | unknownCommand (value : String)
  | schemaMissing
  | unrecognized (texts : List String)
  deriving DecidableEq

/-- A choice among names, as error texts give it. -/
def choiceText (value : String) (names : List String) : String :=
  "invalid choice: " ++ Text.quoted value ++
    " (choose from " ++ ", ".intercalate (names.map Text.quoted) ++ ")"

/-- The wording of what is wrong with a command line. -/
def UsageFault.message : UsageFault → String
  | ambiguous text names =>
    "ambiguous option: " ++ text ++ " could match " ++ ", ".intercalate names
  | valueMissing o => "argument " ++ o.title ++ ": expected one argument"
  | valueIgnored o value =>
    "argument " ++ o.title ++ ": ignored explicit argument " ++ Text.quoted value
  | unknownFormat value =>
    "argument " ++ Switch.format.title ++ ": " ++ choiceText value ["json", "yaml"]
  | unknownCommand value => "argument command: " ++ choiceText value (Command.all.map Command.name)
  | schemaMissing => "the following arguments are required: " ++ Switch.schema.title
  | unrecognized texts => "unrecognized arguments: " ++ " ".intercalate texts

namespace Argument

/-- An argument as it was given. -/
def text : Argument → String
  | operand t | unknown t | option t _ _ _ => t
  | separator => "--"

/-- Splits a text at its first equals sign. -/
def splitEquals (cs : List Char) : Option (List Char × List Char) :=
  match cs.dropWhile (· ≠ '=') with
  | [] => none
  | _ :: value => some (cs.takeWhile (· ≠ '='), value)

/-- The options that a long name may abbreviate. -/
def abbreviated (scope : Scope) (text : String) (cs : List Char) : List Argument :=
  let (start, attached) :=
    match splitEquals cs with
    | some (start, value) => (start, Attachment.byEquals value)
    | none => (cs, .nothing)
  (scope.names.filter fun (name, _) => start.isPrefixOf name.toList).map fun (name, o) =>
    .option text name o attached

/-- The options that a short name with characters glued to it may be. -/
def shortened (scope : Scope) (text : String) (cs : List Char) : List Argument :=
  scope.names.filterMap fun (name, o) =>
    if name.toList = cs.take 2 then some (.option text name o (.glued (cs.drop 2)))
    else if cs.isPrefixOf name.toList then some (.option text name o .nothing)
    else none

/-- Whether a text is a negative number, of digits with perhaps a point among them. A line feed at
its end does not count. -/
def isNegativeNumber (cs : List Char) : Bool :=
  let isDigit := fun c => (Text.digitValue? c).isSome
  let body := if cs.getLast? = some '\n' then cs.dropLast else cs
  match body with
  | '-' :: r =>
    match r.dropWhile isDigit with
    | [] => !r.isEmpty
    | '.' :: places => !places.isEmpty && places.all isDigit
    | _ => false
  | _ => false

/-- An argument before the separator. A text that is no option by any of its readings is still an
operand if it is a negative number or has a space in it. -/
def ofText (scope : Scope) (text : String) : Except UsageFault Argument :=
  let cs := text.toList
  match cs with
  | '-' :: c :: _ =>
    match scope.names.lookup text with
    | some o => .ok (.option text text o .nothing)
    | none =>
      let exact := do
        let (start, value) ← splitEquals cs
        let name := String.ofList start
        let o ← scope.names.lookup name
        return Argument.option text name o (.byEquals value)
      match exact with
      | some a => .ok a
      | none =>
        match (if c = '-' then abbreviated scope text cs else shortened scope text cs) with
        | [a] => .ok a
        | [] =>
          if isNegativeNumber cs || cs.contains ' ' then .ok (.operand text)
          else .ok (.unknown text)
        | as => .error (.ambiguous text (as.filterMap fun
          | .option _ name _ _ => some name
          | _ => none))
  | _ => .ok (.operand text)

/-- The arguments of a command line. -/
def ofTexts (scope : Scope) : List String → Except UsageFault (List Argument)
  | [] => .ok []
  | t :: ts =>
    if t = "--" then .ok (separator :: ts.map operand)
    else do return (← ofText scope t) :: (← ofTexts scope ts)

end Argument

end TreeSchema.CommandLine
