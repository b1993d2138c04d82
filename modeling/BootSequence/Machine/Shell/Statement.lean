import BootSequence.Machine.Shell.Token

/-!
The statements of a shell script, and reading them from tokens. A script is read line by line, so
that what stands before a mistake is still run.
-/

namespace BootSequence
namespace Shell

inductive Direction where
  | read
  | write
  | append
  | duplicate
  deriving DecidableEq, Repr

structure Redirection where
  descriptor : Nat
  direction : Direction
  target : Word
  deriving DecidableEq, Repr

inductive Statement where
  | nothing
  | simple (assignments : List (List Char × Word)) (words : List Word)
  | redirected (redirections : List Redirection) (body : Statement)
  | pipe (left right : Statement)
  | negated (body : Statement)
  | both (left right : Statement)
  | either (left right : Statement)
  | sequence (first second : Statement)
  | background (body : Statement)
  | subshell (body : Statement)
  | choice (condition yes no : Statement)
  | loop (whileTrue : Bool) (condition body : Statement)
  /-- Without items, the loop goes over the arguments of the script. -/
  | forEach (name : List Char) (items : Option (List Word)) (body : Statement)
  /-- Run the body if the subject is as one of the patterns asks, and else go on to the next case.
  -/
  | select (subject : Word) (patterns : List Word) (body next : Statement)
  deriving Repr

namespace Statement

/-- A statement and the tokens behind it; `none` is a mistake in the script. -/
abbrev Parsed := Option (Statement × List Token)

def isReserved (word : String) : Token → Bool
  | .word w => w.bare? = some word.toList
  | _ => false

def closers : List String := ["then", "else", "elif", "fi", "do", "done", "esac", "\x7D"]

def closes : List Token → Bool
  | [] => true
  | .operator text :: _ => text = ")" || text = ";;" || text = "\n"
  | token :: _ => closers.any fun word => isReserved word token

def skipLines : List Token → List Token
  | .operator "\n" :: rest => skipLines rest
  | tokens => tokens

def expect (word : String) : List Token → Option (List Token)
  | token :: rest => if isReserved word token then some rest else none
  | [] => none

def redirection? : List Token → Option (Redirection × List Token)
  | .descriptor n :: .operator text :: .word w :: rest => ofOperator (some n) text w rest
  | .operator text :: .word w :: rest => ofOperator none text w rest
  | _ => none
where
  ofOperator (n : Option Nat) (text : String) (w : Word) (rest : List Token) :
      Option (Redirection × List Token) :=
    match text with
    | "<" => some (⟨n.getD 0, .read, w⟩, rest)
    | ">" => some (⟨n.getD 1, .write, w⟩, rest)
    | ">>" => some (⟨n.getD 1, .append, w⟩, rest)
    | ">&" => some (⟨n.getD 1, .duplicate, w⟩, rest)
    | "<&" => some (⟨n.getD 0, .duplicate, w⟩, rest)
    | _ => none

def redirections : Nat → List Token → List Redirection × List Token
  | 0, tokens => ([], tokens)
  | fuel + 1, tokens =>
    match redirection? tokens with
    | some (r, rest) =>
      let (more, rest) := redirections fuel rest
      (r :: more, rest)
    | none => ([], tokens)

/-- A word that begins with a name and an equals sign, both unquoted, sets a variable. -/
def assignment? (w : Word) : Option (List Char × Word) :=
  let isPlain (p : Part) : Bool :=
    match p with
    | .char c false => c ≠ '='
    | _ => false
  match Word.bare? (w.takeWhile isPlain), w.dropWhile isPlain with
  | some (c :: name), .char '=' false :: value =>
    if Lexer.isNameStart c && name.all Lexer.isNameChar then some (c :: name, value) else none
  | _, _ => none

def under (redirections : List Redirection) (body : Statement) : Statement :=
  if redirections.isEmpty then body else .redirected redirections body

structure Simple where
  assignments : List (List Char × Word)
  words : List Word
  redirections : List Redirection

/-- Assignments stand before the first word; redirections may stand anywhere. -/
def simple? : Nat → Simple → List Token → Parsed
  | 0, _, _ => none
  | fuel + 1, s, tokens =>
    match redirection? tokens, tokens with
    | some (r, rest), _ => simple? fuel { s with redirections := s.redirections ++ [r] } rest
    | none, .word w :: rest =>
      match if s.words.isEmpty then assignment? w else none with
      | some a => simple? fuel { s with assignments := s.assignments ++ [a] } rest
      | none => simple? fuel { s with words := s.words ++ [w] } rest
    | none, _ =>
      if s.words.isEmpty && s.assignments.isEmpty && s.redirections.isEmpty then none
      else some (under s.redirections (.simple s.assignments s.words), tokens)

def items : List Token → List Word × List Token
  | .word w :: rest =>
    let (more, rest) := items rest
    (w :: more, rest)
  | tokens => ([], tokens)

def patterns? : List Token → Option (List Word × List Token)
  | .word w :: .operator ")" :: rest => some ([w], rest)
  | .word w :: .operator "|" :: rest => (patterns? rest).map fun (more, rest) => (w :: more, rest)
  | _ => none

def endsCase : List Token → Bool
  | .operator ";;" :: _ => true
  | token :: _ => isReserved "esac" token
  | [] => false

mutual

/-- Statements one after another. Newlines separate them too if `lines` says so, and end the list
otherwise. -/
def list? (lines : Bool) : Nat → List Token → Parsed
  | 0, _ => none
  | fuel + 1, tokens => do
    let (first, rest) ← andOr? fuel tokens
    match rest with
    | .operator ";" :: rest => more? lines fuel first rest
    | .operator "&" :: rest => more? lines fuel (.background first) rest
    | .operator "\n" :: more => if lines then more? lines fuel first more else some (first, rest)
    | _ => some (first, rest)

def more? (lines : Bool) : Nat → Statement → List Token → Parsed
  | 0, _, _ => none
  | fuel + 1, first, tokens =>
    let tokens := if lines then skipLines tokens else tokens
    if closes tokens then some (first, tokens)
    else do
      let (second, rest) ← list? lines fuel tokens
      some (.sequence first second, rest)

def body? : Nat → List Token → Parsed
  | 0, _ => none
  | fuel + 1, tokens => list? true fuel (skipLines tokens)

def andOr? : Nat → List Token → Parsed
  | 0, _ => none
  | fuel + 1, tokens => do
    let (first, rest) ← pipeline? fuel tokens
    joined? fuel first rest

/-- What is joined to a statement by `&&` and `||`, which bind alike and to the left. -/
def joined? : Nat → Statement → List Token → Parsed
  | 0, _, _ => none
  | fuel + 1, left, .operator "&&" :: rest => do
    let (right, rest) ← pipeline? fuel (skipLines rest)
    joined? fuel (.both left right) rest
  | fuel + 1, left, .operator "||" :: rest => do
    let (right, rest) ← pipeline? fuel (skipLines rest)
    joined? fuel (.either left right) rest
  | _ + 1, left, tokens => some (left, tokens)

def pipeline? : Nat → List Token → Parsed
  | 0, _ => none
  | fuel + 1, tokens =>
    match tokens with
    | token :: rest =>
      if isReserved "!" token then do
        let (body, rest) ← piped? fuel rest
        some (.negated body, rest)
      else piped? fuel tokens
    | [] => none

def piped? : Nat → List Token → Parsed
  | 0, _ => none
  | fuel + 1, tokens => do
    let (left, rest) ← one? fuel tokens
    match rest with
    | .operator "|" :: rest =>
      let (right, rest) ← piped? fuel (skipLines rest)
      some (.pipe left right, rest)
    | _ => some (left, rest)

def one? : Nat → List Token → Parsed
  | 0, _ => none
  | _ + 1, [] => none
  | fuel + 1, token :: rest => do
    let closed (statement : Statement) (tokens : List Token) : Parsed :=
      let (redirections, tokens) := redirections fuel tokens
      some (under redirections statement, tokens)
    if token = .operator "(" then
      match ← body? fuel rest with
      | (body, .operator ")" :: rest) => closed (.subshell body) rest
      | _ => none
    else if isReserved "\x7B" token then
      let (body, rest) ← body? fuel rest
      closed body (← expect "\x7D" rest)
    else if isReserved "if" token then
      let (statement, rest) ← choice? fuel rest
      closed statement rest
    else if isReserved "while" token || isReserved "until" token then
      let (condition, rest) ← body? fuel rest
      let (body, rest) ← body? fuel (← expect "do" rest)
      closed (.loop (isReserved "while" token) condition body) (← expect "done" rest)
    else if isReserved "for" token then
      let (statement, rest) ← forEach? fuel rest
      closed statement rest
    else if isReserved "case" token then
      let (statement, rest) ← select? fuel rest
      closed statement rest
    else if closers.any fun word => isReserved word token then none
    else simple? fuel ⟨[], [], []⟩ (token :: rest)

def choice? : Nat → List Token → Parsed
  | 0, _ => none
  | fuel + 1, tokens => do
    let (condition, rest) ← body? fuel tokens
    let (yes, rest) ← body? fuel (← expect "then" rest)
    match rest with
    | token :: rest =>
      if isReserved "elif" token then
        let (no, rest) ← choice? fuel rest
        some (.choice condition yes no, rest)
      else if isReserved "else" token then
        let (no, rest) ← body? fuel rest
        some (.choice condition yes no, ← expect "fi" rest)
      else if isReserved "fi" token then some (.choice condition yes .nothing, rest)
      else none
    | [] => none

def forEach? : Nat → List Token → Parsed
  | 0, _ => none
  | fuel + 1, tokens => do
    match tokens with
    | .word w :: rest =>
      let name ← w.bare?
      let (items, rest) := match skipLines rest with
        | token :: more =>
          if isReserved "in" token then
            let (words, more) := items more
            (some words, more)
          else (none, rest)
        | [] => (none, rest)
      let rest := match rest with
        | .operator ";" :: rest => rest
        | rest => rest
      let (body, rest) ← body? fuel (← expect "do" (skipLines rest))
      some (.forEach name items body, ← expect "done" rest)
    | _ => none

def select? : Nat → List Token → Parsed
  | 0, _ => none
  | fuel + 1, .word subject :: rest => do cases? fuel subject (← expect "in" (skipLines rest))
  | _ + 1, _ => none

/-- The cases, to the word that ends them. The last one may end with it. -/
def cases? : Nat → Word → List Token → Parsed
  | 0, _, _ => none
  | fuel + 1, subject, tokens => do
    match skipLines tokens with
    | token :: rest =>
      if isReserved "esac" token then some (.nothing, rest)
      else
        let (patterns, rest) ←
          patterns? (if token = .operator "(" then rest else token :: rest)
        let (body, rest) ←
          if endsCase (skipLines rest) then some (.nothing, skipLines rest) else body? fuel rest
        match rest with
        | .operator ";;" :: rest =>
          let (next, rest) ← cases? fuel subject rest
          some (.select subject patterns body next, rest)
        | _ => some (.select subject patterns body .nothing, ← expect "esac" (skipLines rest))
    | [] => none

end

/-- The lines of a script as statements, and whether the script ended without a mistake. -/
def lines : Nat → List Token → List Statement × Bool
  | 0, _ => ([], false)
  | fuel + 1, tokens =>
    match skipLines tokens with
    | [] => ([], true)
    | tokens =>
      match list? false fuel tokens with
      | some (statement, rest) =>
        match rest with
        | [] => ([statement], true)
        | .operator "\n" :: rest =>
          let (more, sound) := lines fuel rest
          (statement :: more, sound)
        | _ => ([], false)
      | none => ([], false)

/-- Every token is passed by a bounded number of calls. -/
def fuel (tokens : List Token) : Nat := 10 * tokens.length + 10

def ofScript (script : List Char) : List Statement × Bool :=
  let tokens := tokens script
  lines (fuel tokens) tokens

end Statement
end Shell
end BootSequence
