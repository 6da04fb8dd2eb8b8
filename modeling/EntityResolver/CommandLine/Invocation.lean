/-!
Invocations of the program: a command with its arguments, and options.

Options that all commands have may stand in front of the command or among its arguments; where both
are given, the latter count. An option occurs once in each of these places. After a lone `--` all
arguments are plain.
-/

set_option autoImplicit false

namespace EntityResolver

inductive Command where
  | get (cls id : String) (fields : Option String)
  | getMany (cls : String) (ids : List String) (fields : Option String)
  | list (cls domain : String) (fields : Option String)
  | search (cls query : String) (fields : Option String)
  | classes
  deriving DecidableEq, Repr

structure Invocation where
  lang : Option String
  baseUrl : Option String
  /-- The output is to be on one line. -/
  compact : Bool
  command : Command
  deriving DecidableEq, Repr

namespace Invocation

inductive OptionName where
  | lang
  | baseUrl
  | fields
  deriving DecidableEq, Repr

inductive Word where
  | compact
  /-- An option whose value is the next argument. -/
  | opening (name : OptionName)
  | setting (name : OptionName) (value : String)
  /-- Only plain arguments follow. -/
  | separator
  | plain (text : String)
  deriving DecidableEq, Repr

structure Options where
  lang : Option String := none
  baseUrl : Option String := none
  fields : Option String := none
  compact : Bool := false
  deriving DecidableEq, Repr

/-- Where arguments stand: in front of the command, or after one that may take fields. -/
inductive Place where
  | program
  | command (takesFields : Bool)
  deriving DecidableEq, Repr

def Place.takesFields : Place → Bool
  | .program => false
  | .command takesFields => takesFields

def optionNamed? (place : Place) (name : List Char) : Option OptionName :=
  match String.ofList name with
  | "lang" => some .lang
  | "base-url" => some .baseUrl
  | "fields" => if place.takesFields then some .fields else none
  | _ => none

/-- A long option, its two dashes already read. -/
def readLong? (place : Place) (text : List Char) : Option Word :=
  match text.takeWhile (· != '='), text.dropWhile (· != '=') with
  | name, [] =>
      if name = "compact".toList then some .compact else (optionNamed? place name).map .opening
  | name, _ :: value =>
      (optionNamed? place name).map fun option => .setting option (String.ofList value)

/-- The short option `f`; what follows the letter is its value, after an equals sign or without. -/
def readShort? (place : Place) : List Char → Option Word
  | 'f' :: text =>
      if place.takesFields then
        match text with
        | [] => some (.opening .fields)
        | '=' :: value => some (.setting .fields (String.ofList value))
        | value => some (.setting .fields (String.ofList value))
      else none
  | _ => none

def readWord? (place : Place) (argument : String) : Option Word :=
  match argument.toList with
  | ['-', '-'] => some .separator
  | ['-'] => some (.plain argument)
  | '-' :: '-' :: text => readLong? place text
  | '-' :: text => readShort? place text
  | _ => some (.plain argument)

/-- An argument can be the value of the option in front of it. -/
def isValue (argument : String) : Bool :=
  !argument.startsWith "-" || argument == "-"

namespace Options

def set? (options : Options) (name : OptionName) (value : String) : Option Options :=
  match name with
  | .lang => if options.lang.isSome then none else some { options with lang := some value }
  | .baseUrl =>
      if options.baseUrl.isSome then none else some { options with baseUrl := some value }
  | .fields => if options.fields.isSome then none else some { options with fields := some value }

def setCompact? (options : Options) : Option Options :=
  if options.compact then none else some { options with compact := true }

/-- Reads arguments: the options among them, and the plain ones. In front of a command reading stops
at the first plain argument, and it and all that follow are returned. -/
def read? (place : Place) : Options → List String → Option (Options × List String)
  | options, [] => some (options, [])
  | options, argument :: rest =>
      match readWord? place argument with
      | none => none
      | some .compact => do read? place (← options.setCompact?) rest
      | some (.setting name value) => do read? place (← options.set? name value) rest
      | some (.opening name) =>
          match rest with
          | [] => none
          | value :: rest =>
              if isValue value then do read? place (← options.set? name value) rest else none
      | some .separator => if place = .program then none else some (options, rest)
      | some (.plain text) =>
          if place = .program then some (options, text :: rest)
          else do
            let (options, plain) ← read? place options rest
            pure (options, text :: plain)

end Options

def readCommand? (name : String) (fields : Option String) : List String → Option Command
  | [] => if name = "classes" then some .classes else none
  | [cls, text] =>
      match name with
      | "get" => some (.get cls text fields)
      | "get-many" => some (.getMany cls [text] fields)
      | "list" => some (.list cls text fields)
      | "search" => some (.search cls text fields)
      | _ => none
  | cls :: id :: ids => if name = "get-many" then some (.getMany cls (id :: ids) fields) else none
  | _ => none

/-- The invocation with the given arguments; `none` if they are not used as they should be. -/
def read? (arguments : List String) : Option Invocation := do
  let (program, rest) ← Options.read? .program {} arguments
  match rest with
  | [] => none
  | name :: rest =>
      let (options, plain) ← Options.read? (.command (name != "classes")) {} rest
      let command ← readCommand? name options.fields plain
      pure
        { lang := options.lang.or program.lang
          baseUrl := options.baseUrl.or program.baseUrl
          compact := options.compact || program.compact
          command }

end Invocation

end EntityResolver
