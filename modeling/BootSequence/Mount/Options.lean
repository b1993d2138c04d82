import BootSequence.Text.Pieces
import BootSequence.Text.Utf8

/-!
Option strings: keys between commas. Keys are compared as they stand, with their values if they
have any, and are collected without repetition.
-/

namespace BootSequence
namespace Mount
namespace Options

/-- The keys of an option string, the empty ones too. -/
def keys (options : List Char) : List (List Char) := pieces (· = ',') options

def addKey (options key : List Char) : List Char :=
  if key.isEmpty || (keys options).contains key then options
  else if options.isEmpty then key
  else options ++ ',' :: key

def merge (options new : List Char) : List Char := (keys new).foldl addKey options

/-- The text behind two dashes; octets that are no text are no option. -/
def long? (arg : Octets) : Option (List Char) :=
  match Utf8.decode? arg with
  | some ('-' :: '-' :: option) => some option
  | _ => none

/-- Take the long options out of an argument list: the arguments left, and the options merged. -/
def fold (args : List Octets) : List Octets × List Char :=
  (args.filter fun arg => (long? arg).isNone, (args.filterMap long?).foldl merge [])

end Options
end Mount
end BootSequence
