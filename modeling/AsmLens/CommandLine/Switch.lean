import AsmLens.Json.Value
import AsmLens.Options
import AsmLens.Text.Literal
import AsmLens.Text.Search

/-!
# Switches

The words that begin with hyphens, what each does, and what can be wrong with their use. A switch
sets a field of the arguments: to a fixed value, to the word after it, or to all words after it up
to the next switch. One switch asks for help.
-/

namespace AsmLens.CommandLine

open Text

/-- What a switch does. -/
inductive Effect where
  | help
  /-- Sets a fixed value. -/
  | fixed (value : Json)
  /-- Sets one word, out of the choices if there are any. -/
  | word (choices : List Text)
  /-- Sets a list of at least one word. -/
  | list
deriving Repr

/-- A switch: its spellings, the field it sets, and what it does. -/
structure Switch where
  names : List Text
  field : Text
  effect : Effect
deriving Repr

namespace Switch

def title (s : Switch) : Text :=
  join ['/'] s.names

/-- A switch of one spelling. -/
def ofName (name field : String) (effect : Effect) : Switch :=
  ⟨[name.toList], field.toList, effect⟩

def help : Switch :=
  ⟨["-h".toList, "--help".toList], [], .help⟩

def common : List Switch :=
  [help, ofName "--target" "target" (.word []),
   ofName "--build-type" "build_type" (.word ["debug".toList, "release".toList]),
   ofName "--features" "features" .list, ofName "--example" "example" (.word []),
   ofName "--lib" "lib" (.fixed (.bool true)),
   ofName "--no-default-features" "no_default_features" (.fixed (.bool true)),
   ofName "--manifest-path" "manifest_path" (.word []),
   ofName "--debug-info" "debug_info" (.fixed (.bool true)),
   ofName "--rust" "rust" (.fixed (.bool true)),
   ofName "--comments" "comments" (.fixed (.bool true)),
   ofName "--directives" "directives" (.fixed (.bool true)),
   ofName "--json" "json" (.fixed (.bool true)),
   ofName "--no-color" "color" (.fixed (.bool false)),
   ofName "--debug-mode" "debug_mode" (.fixed (.bool true))]

/-- The switches of each mode, after the mode's name. -/
def modes : List (Text × List Switch) :=
  [(Options.asmMode,
      common ++ [ofName "--asm-style" "asm_style" (.word ["intel".toList, "att".toList])]),
   (Options.irMode, common)]

end Switch

/-- What is wrong with a command line. -/
inductive UsageProblem where
  | invalidChoice (argument word : Text) (choices : List Text)
  | wordExpected (switch : Text)
  | listExpected (switch : Text)
  /-- A word was attached to a switch that takes none. -/
  | attachedIgnored (switch word : Text)
  | ambiguous (word : Text) (candidates : List Text)
  | unrecognized (words : List Text)
deriving DecidableEq, Repr

namespace UsageProblem

def about (argument problem : Text) : Text :=
  "argument ".toList ++ argument ++ ": ".toList ++ problem

def message : UsageProblem → Text
  | invalidChoice argument word choices =>
    about argument ("invalid choice: ".toList ++ literal word ++ " (choose from ".toList
      ++ join ", ".toList (choices.map literal) ++ [')'])
  | wordExpected switch => about switch "expected one argument".toList
  | listExpected switch => about switch "expected at least one argument".toList
  | attachedIgnored switch word =>
    about switch ("ignored explicit argument ".toList ++ literal word)
  | ambiguous word candidates =>
    "ambiguous option: ".toList ++ word ++ " could match ".toList
      ++ join ", ".toList candidates
  | unrecognized words => "unrecognized arguments: ".toList ++ join [' '] words

end UsageProblem

end AsmLens.CommandLine
