import BootSequence.Text.Digits

/-!
The tokens of a shell script, found by a machine that looks at one character at a time. Quotes are
taken apart here: every character of a word knows whether it was quoted.
-/

namespace BootSequence
namespace Shell

/-- A piece of a word: a character, a parameter to be put in, or a pair of quotes with nothing
between them, which still makes a word. -/
inductive Part where
  | char (c : Char) (quoted : Bool)
  | parameter (name : List Char) (quoted : Bool)
  | nothing
  deriving DecidableEq, Repr

abbrev Word := List Part

/-- The text of a word that is nothing but unquoted characters. -/
def Word.bare? (w : Word) : Option (List Char) :=
  w.mapM fun
    | .char c false => some c
    | _ => none

inductive Token where
  | word (w : Word)
  | descriptor (n : Nat)
  /-- Anything of one or two characters that is not part of a word, and the end of a line. -/
  | operator (text : String)
  | unfinished
  deriving DecidableEq, Repr

/-- What the machine is in the middle of. In quotes it remembers whether anything has come yet. -/
inductive Mode where
  | plain
  | comment
  | single (empty : Bool)
  | double (empty : Bool)
  | escape (quoted : Bool)
  | dollar (quoted : Bool)
  | name (quoted : Bool) (read : List Char)
  | braces (quoted : Bool) (read : List Char)
  | operator (first : Char)
  deriving DecidableEq, Repr

/-- The machine: its mode, the word that has begun, and the tokens found; both newest first. -/
structure Lexer where
  mode : Mode
  word : Option Word
  tokens : List Token
  deriving DecidableEq, Repr

namespace Lexer

def start : Lexer := ⟨.plain, none, []⟩

def isBlank (c : Char) : Bool := c = ' ' || c = '\t'

def isNameStart (c : Char) : Bool := c.isAlpha || c = '_'

def isNameChar (c : Char) : Bool := c.isAlphanum || c = '_'

def isSpecial (c : Char) : Bool := c.isDigit || ['#', '*', '@', '?', '$', '!', '-'].contains c

def doubled : List String := ["&&", "||", ">>", ">&", "<&", ";;"]

def add (l : Lexer) (mode : Mode) (part : Part) : Lexer :=
  { l with mode := mode, word := some (part :: l.word.getD []) }

def endWord (l : Lexer) : Lexer :=
  match l.word with
  | none => { l with mode := .plain }
  | some w => ⟨.plain, none, .word w.reverse :: l.tokens⟩

/-- The word ends before a redirection, where digits are the number of a descriptor. -/
def endDescriptor (l : Lexer) : Lexer :=
  match l.word.bind fun w => (Word.bare? w.reverse).bind decimal? with
  | some n => ⟨.plain, none, .descriptor n :: l.tokens⟩
  | none => l.endWord

def addOperator (l : Lexer) (text : String) : Lexer :=
  { l with mode := .plain, tokens := .operator text :: l.tokens }

def outside (l : Lexer) (c : Char) : Lexer :=
  if isBlank c then l.endWord
  else if c = '\n' then l.endWord.addOperator "\n"
  else if c = '#' && l.word.isNone then { l with mode := .comment }
  else if c = '\x27' then { l with mode := .single true }
  else if c = '\x22' then { l with mode := .double true }
  else if c = '\x5C' then { l with mode := .escape false }
  else if c = '$' then { l with mode := .dollar false }
  else if c = '(' || c = ')' then l.endWord.addOperator (String.singleton c)
  else if c = '<' || c = '>' then { l.endDescriptor with mode := .operator c }
  else if c = '&' || c = '|' || c = ';' then { l.endWord with mode := .operator c }
  else l.add .plain (.char c false)

def inside (l : Lexer) (c : Char) : Lexer :=
  if c = '\x22' then { l with mode := .plain }
  else if c = '\x5C' then { l with mode := .escape true }
  else if c = '$' then { l with mode := .dollar true }
  else l.add (.double false) (.char c true)

def after (l : Lexer) (quoted : Bool) (c : Char) : Lexer :=
  if quoted then l.inside c else l.outside c

def back (quoted : Bool) : Mode := if quoted then .double false else .plain

def step (l : Lexer) (c : Char) : Lexer :=
  match l.mode with
  | .plain => l.outside c
  | .comment => if c = '\n' then { l with mode := .plain }.outside c else l
  | .single empty =>
    if c = '\x27' then
      if empty then l.add .plain .nothing else { l with mode := .plain }
    else l.add (.single false) (.char c true)
  | .double empty =>
    if c = '\x22' && empty then l.add .plain .nothing else l.inside c
  | .escape quoted =>
    if c = '\n' then { l with mode := back quoted }
    else if quoted && ['$', '\x60', '\x22', '\x5C'].all (· ≠ c) then
      (l.add (back quoted) (.char '\x5C' true)).add (back quoted) (.char c true)
    else l.add (back quoted) (.char c true)
  | .dollar quoted =>
    if c = '\x7B' then { l with mode := .braces quoted [] }
    else if isNameStart c then { l with mode := .name quoted [c] }
    else if isSpecial c then l.add (back quoted) (.parameter [c] quoted)
    else (l.add (back quoted) (.char '$' quoted)).after quoted c
  | .name quoted read =>
    if isNameChar c then { l with mode := .name quoted (c :: read) }
    else (l.add (back quoted) (.parameter read.reverse quoted)).after quoted c
  | .braces quoted read =>
    if c = '\x7D' then l.add (back quoted) (.parameter read.reverse quoted)
    else { l with mode := .braces quoted (c :: read) }
  | .operator first =>
    let both := String.ofList [first, c]
    if doubled.contains both then l.addOperator both
    else (l.addOperator (String.singleton first)).outside c

def finish (l : Lexer) : List Token :=
  let last : Lexer := match l.mode with
    | .plain | .comment => l.endWord
    | .name false read => (l.add .plain (.parameter read.reverse false)).endWord
    | .dollar false => (l.add .plain (.char '$' false)).endWord
    | .escape false => (l.add .plain (.char '\x5C' false)).endWord
    | .operator first => l.addOperator (String.singleton first)
    | _ => { l with tokens := .unfinished :: l.tokens }
  last.tokens.reverse

end Lexer

def tokens (script : List Char) : List Token := (script.foldl Lexer.step .start).finish

end Shell
end BootSequence
