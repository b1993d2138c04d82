import BootSequence.Machine.Host

/-!
What the kernel finds when it is to execute a file. A compiled program is taken as it is; a file
that begins with a number sign and an exclamation mark names the program that is to read it.
-/

namespace BootSequence

structure Image where
  program : String
  argv : List Octets
  deriving DecidableEq, Repr

namespace Image

def maxArgument : Nat := 131072

def headLength : Nat := 256

def maxReaders : Nat := 5

def isBlank (b : UInt8) : Bool := b = 32 || b = 9

def isEnd (b : UInt8) : Bool := isBlank b || b = Octets.nul

/-- The words of a line: the path of a reader and one argument for it, which is all the rest of the
line. An octet 0 ends each of them. -/
def readerOfLine (line : Octets) : Option (Octets × List Octets) :=
  let line := line.dropWhile isBlank
  let path := line.takeWhile (!isEnd ·)
  if line.isEmpty then none
  else
    match line.drop path.length with
    | [] => some (path, [])
    | b :: rest =>
      if isBlank b then some (path, [(rest.dropWhile isBlank).takeWhile (· ≠ Octets.nul)])
      else some (path, [])

def trimEnd (line : Octets) : Octets := (line.reverse.dropWhile isBlank).reverse

/-- The reader that a script names in its first line, as the head of the file shows it, which a
short file fills with octets 0. A line that does not end within the head may be cut off in an
argument and not in the path, so that some octet has to end the path. -/
def reader? (content : Octets) : Option (Octets × List Octets) :=
  let head := (content ++ List.replicate headLength Octets.nul).take headLength
  let body := head.drop 2
  if (body.takeWhile (· ≠ Octets.nul)).contains Octets.newline then
    readerOfLine (trimEnd (body.takeWhile (· ≠ Octets.newline)))
  else if (body.dropWhile isBlank).any isEnd then readerOfLine (trimEnd body.dropLast)
  else none

inductive Kind where
  | compiled (name : String)
  | script (reader : Octets) (args : List Octets)
  | unknown
  deriving DecidableEq, Repr

/-- A compiled program is known by the whole of it: a mark alone makes none. -/
def kind (content : Octets) : Kind :=
  match Host.programs.find? fun name => Host.compiled name = content with
  | some name => .compiled name
  | none =>
    if (Octets.ofString "#!").isPrefixOf content then
      match reader? content with
      | some (reader, args) => .script reader args
      | none => .unknown
    else .unknown

/-- The files as they are to be executed, and the ones among them that somebody writes to. -/
structure Source where
  files : Files
  busy : Location → Bool

/-- Only a regular file with the right bit can be executed, and only while nobody writes to it. -/
def content (s : Source) (path : Path) : Except Fault Octets := do
  let loc ← s.files.locate path
  match s.files.tree.node? loc with
  | some (.file _ content) =>
    if !s.files.allows .pass loc then .error (.numbered .permissionDenied)
    else if s.busy loc then .error (.numbered .textBusy)
    else .ok content
  | _ => .error (.numbered .permissionDenied)

def isExecutable (files : Files) (path : Path) : Bool :=
  match files.locate path with
  | .ok loc => (files.tree.node? loc).any Node.isFile && files.allows .pass loc
  | .error _ => false

/-- Find the program behind a path. A script is handed to its reader as an argument, in the place of
the name that it was called by. -/
def load (s : Source) : Nat → Path → List Octets → Except Fault Image
  | readers, path, argv => do
    let content ← content s path
    if argv.any (maxArgument ≤ ·.length) then .error (.numbered .argumentListTooLong)
    else
      match kind content with
      | .compiled name => .ok ⟨name, argv⟩
      | .unknown => .error (.numbered .notExecutableFormat)
      | .script reader args =>
        match readers with
        | 0 => .error (.numbered .tooManyLinks)
        | fewer + 1 => load s fewer ⟨reader⟩ (reader :: args ++ path.octets :: argv.drop 1)

def ofFile (s : Source) (path : Path) (argv : List Octets) : Except Fault Image :=
  load s maxReaders path argv

/-- The places where a name is looked for: one in every directory of the search path. An empty
directory is the working directory. -/
def candidates (searchPath : Octets) (name : Octets) : List Path :=
  if name.isEmpty then []
  else (pieces (· = 58) searchPath).map fun dir =>
    if dir.isEmpty then ⟨name⟩ else ⟨dir ++ Octets.slash :: name⟩

/-- Try one place after another. That nothing is there is forgotten; that it may not be executed is
remembered, and told if nothing else is found. -/
def firstOf (s : Source) (argv : List Octets) (worst : Errno) : List Path → Except Fault Image
  | [] => .error (.numbered worst)
  | path :: rest =>
    match ofFile s path argv with
    | .ok image => .ok image
    | .error fault =>
      if fault = .numbered .permissionDenied then firstOf s argv .permissionDenied rest
      else if fault = .numbered .noEntry ∨ fault = .numbered .notDirectory then
        firstOf s argv worst rest
      else .error fault

/-- Load a program. A name with a slash in it is a path, and is not searched for. -/
def search (s : Source) (searchPath : Octets) (argv : List Octets) (name : Octets) :
    Except Fault Image :=
  if name.contains Octets.slash then ofFile s ⟨name⟩ argv
  else firstOf s argv .noEntry (candidates searchPath name)

end Image
end BootSequence
