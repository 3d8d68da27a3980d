import ChipAtlas.Event

/-!
# Arguments of the command line

The command takes the paths of its input files and, anywhere between them, options that say which
outputs are wanted. Arguments are taken from left to right; the first that is wrong, or that asks
for help, decides.

An option with a value is written as two arguments, or as one with an equals sign. A value on its
own must not look like an option. Every option is given at most once, but for the one that makes the
program talkative. Two hyphens alone end the options.

* `Options` — what is to be done;
* `Invocation.ofArguments` — what a list of arguments asks for.
-/

namespace ChipAtlas

/-- What is to be done: the input files and the wanted outputs. -/
structure Options where
  inputs : List String := []
  tileGrid : Option String := none
  plainText : Option String := none
  dataFolder : Option String := none
  databaseFolder : Option String := none
  architecture : Option String := none
  layout : Option Variant := none
  fuseMap : Option String := none
  correctColumns : Bool := false
  cache : Option String := none
  talkative : Nat := 0
  deriving DecidableEq, Repr, Inhabited

/-- What a list of arguments asks for. -/
inductive Invocation where
  | help
  | misuse
  | perform (options : Options)
  deriving DecidableEq, Repr

namespace Options

/-- The setting for an option that must not have one yet, from a text that has to stand for one. -/
def once {α : Type} (known : Option α) (read : String → Option α) (text : String) :
    Option (Option α) :=
  match known with
  | some _ => none
  | none => (read text).map some

/-- A path. The empty text is none. -/
def path? (text : String) : Option String := if text = "" then none else some text

/-- The layout with a name. -/
def layout? (text : String) : Option Variant :=
  if text = "current" then some .current
  else if text = "legacy" then some .legacy
  else none

/-- The options with a value, by name, and what they set. -/
def settings : List (String × (Options → String → Option Options)) := [
  ("tilegrid", fun o v => return { o with tileGrid := ← once o.tileGrid path? v }),
  ("decrypt", fun o v => return { o with plainText := ← once o.plainText path? v }),
  ("datadir", fun o v => return { o with dataFolder := ← once o.dataFolder path? v }),
  ("db-dir", fun o v => return { o with databaseFolder := ← once o.databaseFolder path? v }),
  ("arch", fun o v => return { o with architecture := ← once o.architecture some v }),
  ("schema", fun o v => return { o with layout := ← once o.layout layout? v }),
  ("fusemap", fun o v => return { o with fuseMap := ← once o.fuseMap path? v }),
  ("cache", fun o v => return { o with cache := ← once o.cache path? v })]

/-- What the option with a name sets, if it takes a value. -/
def setting? (name : String) : Option (Options → String → Option Options) :=
  (settings.find? (·.1 = name)).map Prod.snd

/-- The options with one more input file. -/
def addInput (o : Options) (text : String) : Option Options :=
  (path? text).map fun path => { o with inputs := o.inputs ++ [path] }

/-- The options with more input files. -/
def addInputs : Options → List String → Option Options
  | o, [] => some o
  | o, text :: rest => do addInputs (← o.addInput text) rest

/-- Whether outputs are wanted that are made once and not for every input. -/
def hasSingleOutputs (o : Options) : Bool :=
  o.tileGrid.isSome || o.plainText.isSome || o.dataFolder.isSome || o.fuseMap.isSome ||
    o.cache.isSome

end Options

namespace Invocation

/-- Whether an argument cannot be the value of an option in front of it. -/
def looksLikeOption (text : String) : Bool := text.startsWith "-" && text ≠ "-"

/-- A run of one-letter options, either the options with them or the request that ends the
arguments. -/
def letters : Options → List Char → Except Invocation Options
  | o, [] => .ok o
  | o, c :: rest =>
    if c = 'v' then letters { o with talkative := o.talkative + 1 } rest
    else if c = 'h' then .error .help
    else .error .misuse

/-- An option without a value, by name. -/
def switch (o : Options) (name : String) : Except Invocation Options :=
  if name = "verbose" then .ok { o with talkative := o.talkative + 1 }
  else if name = "correct-columns" then
    if o.correctColumns then .error .misuse else .ok { o with correctColumns := true }
  else if name = "help" then .error .help
  else .error .misuse

/-- The name of a long option, and the value behind an equals sign if there is one. -/
def splitOption (text : String) : String × Option String :=
  let name := text.toList.takeWhile (· ≠ '=')
  match text.toList.drop name.length with
  | [] => (String.ofList name, none)
  | _ :: value => (String.ofList name, some (String.ofList value))

/-- What remains to be checked at the end: the folder that the environment names stands in for one
that is not given, and there has to be an input. -/
def finish (environment : Option String) (o : Options) : Invocation :=
  let folder := if o.databaseFolder.isSome then none else environment
  if o.inputs.isEmpty ∨ folder = some "" then misuse
  else perform { o with databaseFolder := o.databaseFolder <|> folder }

/-- Goes on if there are options to go on with. -/
def orMisuse (o : Option Options) (next : Options → Invocation) : Invocation :=
  match o with
  | some o => next o
  | none => misuse

/-- What further arguments ask for, after those that gave the options so far. -/
def further (environment : Option String) : Options → List String → Invocation
  | o, [] => finish environment o
  | o, text :: rest =>
    if text = "--" then orMisuse (o.addInputs rest) (finish environment)
    else if text.startsWith "--" then
      let (name, value) := splitOption (String.ofList (text.toList.drop 2))
      match Options.setting? name, value, rest with
      | some set, some value, rest =>
        orMisuse (set o value) fun o => further environment o rest
      | some set, none, value :: rest =>
        if looksLikeOption value then misuse
        else orMisuse (set o value) fun o => further environment o rest
      | some _, none, [] => misuse
      | none, some _, _ => misuse
      | none, none, rest =>
        match switch o name with
        | .ok o => further environment o rest
        | .error invocation => invocation
    else if looksLikeOption text then
      match letters o (text.toList.drop 1) with
      | .ok o => further environment o rest
      | .error invocation => invocation
    else orMisuse (o.addInput text) fun o => further environment o rest

/-- What a list of arguments asks for, with the database folder that the environment names. -/
def ofArguments (environment : Option String) (arguments : List String) : Invocation :=
  further environment {} arguments

end Invocation

end ChipAtlas
