import LuaDocs.Command.Arguments

/-!
# Command lines

Arguments are words: options with a short and a long name, some of which take a value, and at most one
further argument, the root of the project. Short options can be put together behind one dash; after two
dashes everything is a further argument.
-/

namespace LuaDocs

namespace Arguments

def none : Arguments :=
  ⟨.none, .none, .none, false, .none, false, false, false⟩

inductive Switch where
  | denyWarnings
  | check
  | verbose
  | quiet
  | help
  deriving DecidableEq

/-- Options with a value. -/
inductive Setting where
  | config
  | moduleName
  | print
  deriving DecidableEq

/-- An option: one without a value, or one with. -/
abbrev Flag := Switch ⊕ Setting

def long? (name : Text) : Option Flag :=
  [("config", Sum.inr Setting.config), ("module", .inr .moduleName), ("print", .inr .print),
    ("deny-warnings", .inl Switch.denyWarnings), ("check", .inl .check),
    ("verbose", .inl .verbose), ("quiet", .inl .quiet), ("help", .inl .help)].findSome?
    fun (n, flag) => if n.toList == name then some flag else .none

/-- The option of a letter. -/
def short? : Char → Option Flag
  | 'c' => some (.inr .config)
  | 'm' => some (.inr .moduleName)
  | 'p' => some (.inr .print)
  | 'v' => some (.inl .verbose)
  | 'q' => some (.inl .quiet)
  | 'h' => some (.inl .help)
  | _ => .none

/-- The value of an option that is given at most once. -/
def once (present : Bool) (a : Arguments) : Except Refusal Arguments :=
  if present then .error .usage else .ok a

def turnOn (a : Arguments) : Switch → Except Refusal Arguments
  | .denyWarnings => once a.denyWarnings { a with denyWarnings := true }
  | .check => once a.check { a with check := true }
  | .verbose => once a.verbose { a with verbose := true }
  | .quiet => once a.quiet { a with quiet := true }
  | .help => .error .help

/-- The arguments with a value for an option. A path cannot be empty. -/
def set (a : Arguments) (value : Text) : Setting → Except Refusal Arguments
  | .config => once (a.config.isSome || value.isEmpty) { a with config := value }
  | .moduleName => once a.moduleName.isSome { a with moduleName := value }
  | .print => once a.print.isSome { a with print := value }

/-- The arguments with a further argument. -/
def setRoot (a : Arguments) (value : Text) : Except Refusal Arguments :=
  once (a.root.isSome || value.isEmpty) { a with root := value }

/-- What one word on the command line amounts to. -/
inductive Step where
  /-- The word is complete. -/
  | done (a : Arguments)
  /-- The next word is the value of an option. -/
  | wants (a : Arguments) (setting : Setting)

/-- A word of short options, after its dash. An option with a value takes the rest of the word, less an
equals sign, or else the next word. -/
def shortWord (a : Arguments) : Text → Except Refusal Step
  | [] => .ok (.done a)
  | c :: s =>
    match short? c with
    | .none => .error .usage
    | some (.inl switch) => do shortWord (← a.turnOn switch) s
    | some (.inr setting) =>
      match s with
      | [] => .ok (.wants a setting)
      | '=' :: value => return .done (← a.set value setting)
      | value => return .done (← a.set value setting)

/-- A word with a long option, after its two dashes. -/
def longWord (a : Arguments) (s : Text) : Except Refusal Step :=
  let value : Option Text := match s.dropWhile (· != '=') with
    | [] => .none
    | _ :: value => some value
  match long? (s.takeWhile (· != '=')), value with
  | some (.inl switch), .none => return .done (← a.turnOn switch)
  | some (.inr setting), some value => return .done (← a.set value setting)
  | some (.inr setting), .none => .ok (.wants a setting)
  | _, _ => .error .usage

/-- Whether a word is an option. A single dash is none. -/
def isOption : Text → Bool
  | '-' :: _ :: _ => true
  | _ => false

/-- The arguments after all words; `wanted` is the option whose value comes next, if there is one. -/
def readFrom (a : Arguments) (wanted : Option Setting) : List Text → Except Refusal Arguments
  | [] => if wanted.isSome then .error .usage else .ok a
  | word :: rest =>
    match wanted with
    | some setting =>
      if isOption word then .error .usage
      else do readFrom (← a.set word setting) .none rest
    | .none =>
      if word == "--".toList then rest.foldlM setRoot a
      else if isOption word then do
        let step ← match word with
          | '-' :: '-' :: s => longWord a s
          | _ => shortWord a (word.drop 1)
        match step with
        | .done a => readFrom a .none rest
        | .wants a setting => readFrom a (some setting) rest
      else do readFrom (← a.setRoot word) .none rest

/-- The arguments in the words of a command line. Checking goes without printing, and nobody can be told
more and nothing at once. -/
def ofWords (words : List Text) : Except Refusal Arguments := do
  let a ← readFrom .none .none words
  if (a.check && a.print.isSome) || (a.verbose && a.quiet) then throw .usage
  return a

end Arguments

namespace Standard

scoped instance arguments : ArgumentReader where
  read := Arguments.ofWords

end Standard

end LuaDocs
