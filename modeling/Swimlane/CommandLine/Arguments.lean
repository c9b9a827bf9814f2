import Swimlane.Text.DecimalDigit
import Swimlane.Text.Quoted

/-!
# Arguments

Reading the arguments of a program against a description of its options and operands.  Options
may stand anywhere; a long option may be cut short as long as it stays unique, a value may be
joined to its option, and everything behind two dashes is an operand.
-/

namespace Swimlane.Arguments

/-- An option of a program. -/
structure OptionSpec where
  /-- Its names, dashes included. -/
  names : List String
  /-- Whether it asks for help; any other option has a value. -/
  isHelp : Bool
  /-- The values it may have; none means any. -/
  choices : List String
  deriving DecidableEq, Repr

/-- How many arguments an operand takes. -/
inductive Arity where
  | one
  | atMostOne
  /-- One, and all arguments behind it: the name of a command and its own arguments. -/
  | command
  deriving DecidableEq, Repr

/-- An operand of a program. -/
structure OperandSpec where
  name : String
  arity : Arity
  /-- The values it may have; none means any. -/
  choices : List String
  deriving DecidableEq, Repr

/-- What a program takes. -/
structure Grammar where
  program : String
  options : List OptionSpec
  operands : List OperandSpec

/-- Why arguments are not taken. -/
inductive Exit where
  /-- Help was asked for. -/
  | help
  /-- The arguments do not fit; the message names the program. -/
  | misuse (message : String)
  deriving DecidableEq, Repr

/-- What was read. -/
structure Reading where
  /-- The values of options and operands by their first names, later ones first.  Nothing stands
      for a value that was taken away. -/
  values : List (String × Option String)
  /-- The name of the command and its own arguments. -/
  command : Option (String × List String)
  /-- The arguments that nothing takes. -/
  extras : List String
  deriving Repr

/-! ## Messages -/

/-- The complaint of a program. -/
def Grammar.misuse (g : Grammar) (message : String) : Exit :=
  .misuse s!"{g.program}: error: {message}"

/-- The complaint of a program about one of its arguments. -/
def Grammar.misuseOf (g : Grammar) (name message : String) : Exit :=
  g.misuse s!"argument {name}: {message}"

/-- The name of an option in messages. -/
def OptionSpec.title (o : OptionSpec) : String := "/".intercalate o.names

/-- Refuses a value that is not among the choices. -/
def Grammar.check (g : Grammar) (name : String) (choices : List String) (value : String) :
    Except Exit Unit :=
  if choices.isEmpty || choices.contains value then .ok ()
  else
    let listed := ", ".intercalate (choices.map Text.quote)
    .error (g.misuseOf name s!"invalid choice: {Text.quote value} (choose from {listed})")

/-! ## Options in arguments -/

/-- An option found in an argument. -/
structure Found where
  option : OptionSpec
  /-- The name it was found by. -/
  name : String
  /-- The value that is joined to it, with an equals sign between them or not. -/
  joined : Option String
  deriving DecidableEq, Repr

/-- What an argument looks like. -/
inductive Look where
  | operand
  | dashes
  | option (found : Found)
  /-- An option that the program does not have. -/
  | unknown
  deriving DecidableEq, Repr

/-- All names of options, each with its option. -/
def Grammar.names (g : Grammar) : List (String × OptionSpec) :=
  g.options.flatMap fun o => o.names.map (·, o)

/-- The option with a given name. -/
def Grammar.option? (g : Grammar) (name : String) : Option OptionSpec :=
  (g.names.find? (·.1 == name)).map (·.2)

/-- The parts of an argument before and behind its first equals sign, if it has one. -/
def splitEquals (cs : List Char) : String × Option String :=
  match cs.span (· != '=') with
  | (name, []) => (String.ofList name, none)
  | (name, _ :: value) => (String.ofList name, some (String.ofList value))

/-- Whether there is nothing more than the end of a line. -/
def isLineEnd (cs : List Char) : Bool := cs.isEmpty || cs == ['\n']

/-- Whether an argument is a negative number. -/
def isNegativeNumber : List Char → Bool
  | '-' :: cs =>
    let isDigit (c : Char) := (Text.digitValue? c).isSome
    match cs.span isDigit with
    | (_, '.' :: fraction) =>
      let (digits, rest) := fraction.span isDigit
      !digits.isEmpty && isLineEnd rest
    | (whole, rest) => !whole.isEmpty && isLineEnd rest
  | _ => false

/-- The options that an argument with two dashes may be short for. -/
def Grammar.longMatches (g : Grammar) (cs : List Char) : List Found :=
  let (start, value) := splitEquals cs
  (g.names.filter fun (name, _) => start.toList.isPrefixOf name.toList).map fun (name, o) =>
    ⟨o, name, value⟩

/-- The options that an argument with one dash may be: an option of one letter with its value
    joined, or the start of a longer one. -/
def Grammar.shortMatches (g : Grammar) (cs : List Char) : List Found :=
  g.names.filterMap fun (name, o) =>
    if name.toList == cs.take 2 then some ⟨o, name, some (String.ofList (cs.drop 2))⟩
    else if cs.isPrefixOf name.toList then some ⟨o, name, none⟩
    else none

/-- The options that an argument may be. -/
def Grammar.matches (g : Grammar) (cs : List Char) : List Found :=
  match cs with
  | '-' :: '-' :: _ => g.longMatches cs
  | _ => g.shortMatches cs

/-- What an argument with a dash looks like that is not the full name of an option. -/
def Grammar.guess (g : Grammar) (argument : String) : Except Exit Look :=
  let cs := argument.toList
  match g.matches cs with
  | [found] => .ok (.option found)
  | [] => .ok (if isNegativeNumber cs || cs.contains ' ' then .operand else .unknown)
  | several =>
    let listed := ", ".intercalate (several.map (·.name))
    .error (g.misuse s!"ambiguous option: {argument} could match {listed}")

/-- What an argument looks like. -/
def Grammar.look (g : Grammar) (argument : String) : Except Exit Look :=
  match argument.toList with
  | '-' :: rest =>
    match g.option? argument with
    | some o => .ok (.option ⟨o, argument, none⟩)
    | none =>
      if rest.isEmpty then .ok .operand
      else match splitEquals argument.toList with
        | (name, some value) =>
          match g.option? name with
          | some o => .ok (.option ⟨o, name, some value⟩)
          | none => g.guess argument
        | _ => g.guess argument
  | _ => .ok .operand

/-- An argument and what it looks like. -/
abbrev Seen := String × Look

/-- What the arguments look like.  Behind two dashes everything is an operand. -/
def Grammar.lookAll (g : Grammar) : List String → Except Exit (List Seen)
  | [] => .ok []
  | a :: rest =>
    if a = "--" then .ok ((a, .dashes) :: rest.map (·, .operand))
    else do
      let look ← g.look a
      return (a, look) :: (← g.lookAll rest)

/-! ## Reading options -/

/-- The value of an option, and the arguments behind it. -/
def Grammar.takeValue (g : Grammar) (o : OptionSpec) (joined : Option String) (rest : List Seen) :
    Except Exit (String × List Seen) :=
  match joined, rest with
  | some value, rest => .ok (value, rest)
  | none, (value, .operand) :: rest => .ok (value, rest)
  | none, _ => .error (g.misuseOf o.title "expected one argument")

/-- The complaint about a value that an option has no use for. -/
def Grammar.ignored (g : Grammar) (o : OptionSpec) (value : List Char) : Exit :=
  g.misuseOf o.title s!"ignored explicit argument {Text.quote (String.ofList value)}"

/-- What becomes of letters joined to a help option: further options of one letter, the last of
    which may have a value.  Help is given unless they do not fit. -/
def Grammar.takeLetters (g : Grammar) (o : OptionSpec) (rest : List Seen) : List Char → Exit
  | [] => .help
  | c :: cs =>
    match g.option? (String.ofList ['-', c]) with
    | none => g.ignored o (c :: cs)
    | some next =>
      if next.isHelp then g.takeLetters next rest cs
      else if cs.isEmpty then
        match g.takeValue next none rest with
        | .ok _ => .help
        | .error exit => exit
      else .help

/-- How a help option ends the reading. -/
def Grammar.takeHelp (g : Grammar) (found : Found) (rest : List Seen) : Exit :=
  match found.joined with
  | none => .help
  | some value =>
    if value.isEmpty || found.name.toList.take 2 == ['-', '-'] then
      g.ignored found.option value.toList
    else g.takeLetters found.option rest value.toList

/-- Reads an option and its value.  Two dashes that are joined to an option take its value away. -/
def Grammar.takeOption (g : Grammar) (r : Reading) (found : Found) (rest : List Seen) :
    Except Exit (Reading × List Seen) := do
  let o := found.option
  if o.isHelp then throw (g.takeHelp found rest)
  let (value, rest) ← g.takeValue o found.joined rest
  let name := o.names.headD ""
  if value = "--" then return ({ r with values := (name, none) :: r.values }, rest)
  g.check o.title o.choices value
  return ({ r with values := (name, some value) :: r.values }, rest)

/-! ## Reading operands -/

/-- The arguments without the mark of two dashes, and those behind it. -/
def dropDashes : List Seen → List Seen
  | (_, .dashes) :: rest => rest
  | seen => seen

/-- Whether an operand in front is nothing but two dashes.  An operand that may be missing takes
    them without a value. -/
def isBareDashes : List Seen → Bool
  | (value, .operand) :: _ => value == "--"
  | _ => false

/-- Reads the operands that the arguments in front serve, as many as possible.  What remains of
    the operands and of the arguments comes with them. -/
def Grammar.takeOperands (g : Grammar) (r : Reading) (seen : List Seen) :
    List OperandSpec → Except Exit (Reading × List Seen × List OperandSpec)
  | [] => .ok (r, seen, [])
  | spec :: more =>
    match spec.arity with
    | .command =>
      -- The name is the first argument as it stands, so two dashes in front are taken for it.
      match seen, dropDashes seen with
      | (name, _) :: rest, (_, .operand) :: _ => do
        g.check spec.name spec.choices name
        return ({ r with command := some (name, rest.map (·.1)) }, [], more)
      | _, _ => .ok (r, seen, spec :: more)
    | .one =>
      match dropDashes seen with
      | (value, .operand) :: rest =>
        g.takeOperands { r with values := (spec.name, some value) :: r.values } (dropDashes rest) more
      | _ => .ok (r, seen, spec :: more)
    | .atMostOne =>
      match dropDashes seen with
      | (value, .operand) :: rest =>
        if isBareDashes seen then g.takeOperands r (dropDashes rest) more
        else
          g.takeOperands { r with values := (spec.name, some value) :: r.values } (dropDashes rest)
            more
      | rest => g.takeOperands r rest more

/-! ## Reading all arguments -/

/-- Whether an argument looks like an option, known or not. -/
def isOption : Seen → Bool
  | (_, .option _) => true
  | (_, .unknown) => true
  | _ => false

/-- Reads options and operands in turn, and at last the operands behind the last option.  The
    bound is the number of arguments, each of which is read once. -/
def Grammar.readFrom (g : Grammar) (r : Reading) (specs : List OperandSpec) (seen : List Seen) :
    Nat → Except Exit (Reading × List OperandSpec)
  | 0 => .ok ({ r with extras := r.extras ++ seen.map (·.1) }, specs)
  | bound + 1 =>
    match seen with
    | [] => do
      let (r, _, specs) ← g.takeOperands r [] specs
      return (r, specs)
    | (_, .option found) :: rest => do
      let (r, rest) ← g.takeOption r found rest
      g.readFrom r specs rest bound
    | (a, .unknown) :: rest => g.readFrom { r with extras := r.extras ++ [a] } specs rest bound
    | seen => do
      let (r', rest, specs') ← g.takeOperands r seen specs
      if rest.length < seen.length then g.readFrom r' specs' rest bound
      else
        -- No operand fits any more: what stands before the next option is left over.
        let skipped := seen.takeWhile (!isOption ·)
        g.readFrom { r' with extras := r'.extras ++ skipped.map (·.1) } specs'
          (seen.dropWhile (!isOption ·)) bound

/-- The names of the operands that must be given. -/
def requiredNames (specs : List OperandSpec) : List String :=
  (specs.filter (·.arity != .atMostOne)).map (·.name)

/-- What the arguments say. -/
def Grammar.read (g : Grammar) (arguments : List String) : Except Exit Reading := do
  let seen ← g.lookAll arguments
  let (r, specs) ← g.readFrom ⟨[], none, []⟩ g.operands seen (2 * seen.length + 1)
  match requiredNames specs with
  | [] => return r
  | names =>
    throw (g.misuse ("the following arguments are required: " ++ ", ".intercalate names))

/-- The value read for a name. -/
def Reading.value? (r : Reading) (name : String) : Option String := (r.values.lookup name).join

end Swimlane.Arguments
