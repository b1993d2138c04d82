import BootSequence.Machine.Image
import BootSequence.Machine.Printf
import BootSequence.Machine.Programs
import BootSequence.Machine.Shell.Pattern
import BootSequence.Machine.Signals
import BootSequence.Machine.State

/-!
What processes do, one thing at a time. A statement changes the state of its process and of the
machine, and puts before the rest of the work what it leaves to be done. Whatever runs in a child
runs in a process of its own, for which its parent waits or not.
-/

namespace BootSequence
namespace Shell

structure State where
  process : Process
  machine : Machine

abbrev Run (α : Type) : Type := StateM State α

/-! ## The state -/

def modifyProcess (f : Process → Process) : Run Unit :=
  modify fun st => { st with process := f st.process }

def scope : Run Scope := return (← get).process.scope

def setScope (s : Scope) : Run Unit := modifyProcess fun p => { p with scope := s }

def finish (status : Nat) : Run Unit := do setScope { ← scope with status := status }

def push (work : List Work) : Run Unit :=
  modifyProcess fun p => { p with work := work ++ p.work }

def leave (outcome : Outcome) : Run Unit := modifyProcess fun p => { p with ended := some outcome }

def setDescriptors (d : Descriptors) : Run Unit :=
  modifyProcess fun p => { p with descriptors := d }

def print (o : Octets) : Run Unit :=
  modify fun st => { st with machine := st.machine.write st.process.descriptors.output o }

def pause (micros : Nat) : Run Unit := do
  let now := (← get).machine.clock
  modifyProcess fun p => { p with wake := .time (now + micros) }

/-! ## Children -/

/-- How long it takes until a child that is split off does something, and until a program that is
executed does. -/
def forkTime : Nat := 100

def loadTime : Nat := 1000

/-- Split off a child with work of its own. It is told its number by nobody: to a shell, the number
of the shell that it was split off from stands for its own. -/
def fork (work : List Work) (descriptors : Descriptors) : Run Nat := do
  let st ← get
  let pid := st.machine.nextPid
  let parent := st.process
  let child : Process :=
    { parent with
      pid := pid
      descriptors := descriptors
      inLoop := parent.inLoop || parent.work.any Work.isLoop
      children := []
      known := []
      work := work
      wake := .time (st.machine.clock + forkTime) }
  set (⟨{ parent with children := parent.children ++ [pid] },
    { st.machine with nextPid := pid + 1, running := st.machine.running ++ [child] }⟩ : State)
  return pid

def await (pids : List Nat) (asked : Option Nat) : Run Unit := do
  push [.collect asked]
  modifyProcess fun p => { p with wake := .ended pids }

def collect (asked : Option Nat) : Run Unit := do
  let st ← get
  let (gone, left) := st.process.children.partition st.machine.hasEnded
  let known := st.machine.ended.filter fun e => gone.contains e.1
  set (⟨{ st.process with children := left, known := st.process.known ++ known },
    gone.foldl Machine.forget st.machine⟩ : State)
  match asked with
  | none => finish 0
  | some pid =>
    finish ((((← get).process.known.lookup pid).map fun o => o.code.toNat).getD 127)

def inChild (work : List Work) (descriptors : Descriptors) : Run Unit := do
  let pid ← fork work descriptors
  await [pid] (some pid)

/-- Run the left side into a pipe, and the right side out of it. The status is that of the right. -/
def pipe (left right : Statement) : Run Unit := do
  let st ← get
  let (n, machine) := st.machine.addStream (.text [])
  set (⟨st.process, machine⟩ : State)
  let d := st.process.descriptors
  let first ← fork [.run left] { d with output := .stream n }
  let last ← fork [.run right] { d with input := n }
  await [first, last] (some last)

/-- Run a statement in the background: without input, and deaf to what is typed to stop the shell.
-/
def background (statement : Statement) : Run Unit := do
  let before := (← get).process
  let pid ← fork [.ignore Signals.typed, .run statement]
    { before.descriptors with input := Children.nothing }
  setScope { ← scope with background := some pid }
  finish 0

/-! ## Redirections -/

/-- Redirect one descriptor; `false` if that fails. -/
def redirect (r : Redirection) : Run Bool := do
  let st ← get
  let target := st.process.scope.text r.target
  let d := st.process.descriptors
  let connect (sink : Sink) (m : Machine) : Run Unit :=
    let d := match r.descriptor with
      | 1 => { d with output := sink }
      | 2 => { d with errors := sink }
      | _ => d
    set (⟨{ st.process with descriptors := d }, m⟩ : State)
  match r.direction with
  | .read =>
    match st.machine.openInput target with
    | .ok (n, machine) =>
      let d := if r.descriptor = 0 then { d with input := n } else d
      set (⟨{ st.process with descriptors := d }, machine⟩ : State)
      return true
    | .error _ => return false
  | .write | .append =>
    match st.machine.openSink ⟨target⟩ (r.direction = .write) with
    | .ok (sink, machine) =>
      connect sink machine
      return true
    | .error _ => return false
  | .duplicate =>
    let sink? : Option Sink := match Octets.lossy target with
      | "1" => some d.output
      | "2" => some d.errors
      | "0" | "-" => some .lost
      | _ => none
    match sink? with
    | some sink =>
      connect sink st.machine
      return true
    | none => return false

def redirectAll : List Redirection → Run Bool
  | [] => return true
  | r :: rest => do if ← redirect r then redirectAll rest else return false

/-- The builtins that end a shell if they cannot be redirected. -/
def special : List String :=
  [":", ".", "break", "continue", "eval", "exec", "exit", "export", "readonly", "return", "set",
    "shift", "times", "trap", "unset"]

def commandName? : Statement → Option String
  | .simple _ (word :: _) => word.bare?.map String.ofList
  | _ => none

/-- Run a statement under redirections, and put the descriptors back afterwards, unless nothing
comes afterwards or the redirections are to stay. -/
def redirected (redirections : List Redirection) (body : Statement) : Run Unit := do
  let before := (← get).process
  let name := commandName? body
  if ← redirectAll redirections then
    let stays := before.work.isEmpty || match body with
      | .simple _ [_] => name = some "exec"
      | _ => false
    push (.run body :: if stays then [] else [.restore before.descriptors])
  else
    setDescriptors before.descriptors
    if name.any special.contains then leave (.exited 2) else finish 2

/-! ## Programs -/

def become (image : Image) (vars : List (Octets × Octets)) : Run Unit := do
  modifyProcess fun p =>
    { p with
      scope := ⟨image.argv.headD [], [], vars, vars.map (·.1), 0, p.pid, none⟩
      argv := image.argv
      inLoop := false
      known := []
      work := [.program image.program] }
  pause loadTime

def failureStatus (fault : Fault) : Nat :=
  let missing : List Errno := [.noEntry, .notDirectory, .nameTooLong, .tooManyLinks]
  if fault.errno?.any missing.contains then 127 else 126

/-- A file is no text if its first line, as far as its first 128 octets show it, has control
characters that texts do not have. -/
def isText (content : Octets) : Bool :=
  let isControl (b : UInt8) : Bool := b < 9 || (15 < b && b < 32 && b ≠ 27) || b = 127
  !((content.take 128).takeWhile (· ≠ Octets.newline)).any isControl

/-- What executing a file comes to. A text that is executable and no program is handed to a shell.
-/
def imageOf (source : Image.Source) (argv : List Octets) (path : Path) : Except Fault Image :=
  match Image.ofFile source path argv with
  | .error fault =>
    match Image.content source path with
    | .ok content =>
      if fault = .numbered .notExecutableFormat && isText content then
        .ok ⟨"sh", .ofString "/bin/sh" :: path.octets :: argv.drop 1⟩
      else .error fault
    | .error _ => .error fault
  | found => found

/-- The first image that there is. Of what is wrong with the others, that one was not found counts
least. -/
def firstImage (source : Image.Source) (argv : List Octets) (worst : Fault) :
    List Path → Except Fault Image
  | [] => .error worst
  | path :: rest =>
    match imageOf source argv path with
    | .ok image => .ok image
    | .error fault =>
      let isMissing := fault = .numbered .noEntry || fault = .numbered .notDirectory
      firstImage source argv (if isMissing then worst else fault) rest

/-- Search for a program and become it. A name without a slash stands for the files of that name in
the search path, from the first `known` one on: a command is looked up as one that can be executed
before anything is tried. -/
def load (known : Files → Path → Bool) (argv : List Octets) (vars : List (Octets × Octets)) :
    Run Unit := do
  let st ← get
  let machine := st.machine.update st.process
  let source : Image.Source := ⟨machine.files, machine.isBusy⟩
  let name := argv.headD []
  let searchPath := (vars.lookup (.ofString "PATH")).getD []
  let paths :=
    if name.contains Octets.slash then [⟨name⟩]
    else (Image.candidates searchPath name).dropWhile (!known machine.files ·)
  match firstImage source argv (.numbered .noEntry) paths with
  | .ok image => become image vars
  | .error fault => leave (.exited (failureStatus fault : Nat))

/-- Run the lines of a text, octets 0 left out. A mistake in it ends the shell where it stands. What
is added to a file behind its last line while that is run belongs to the script. -/
def script (text : Octets) (file : Option OpenFile) : Run Unit := do
  let (lines, sound) := Statement.ofScript (Octets.characters (text.filter (· ≠ Octets.nul)))
  push [.lines lines sound file]

def readOn (rest : List Statement) (sound : Bool) (file : Option OpenFile) : Run Unit := do
  match rest, sound, file with
  | line :: rest, _, _ => push [.run line, .lines rest sound file]
  | [], false, _ => leave (.exited 2)
  | [], true, none => return ()
  | [], true, some file =>
    let (text, file) := file.rest (← get).machine.files
    if !text.isEmpty then script text (some file)

def takeInput : Run (Option Octets) := do
  let st ← get
  let (text, machine) := st.machine.take st.process.descriptors.input
  set (⟨st.process, machine⟩ : State)
  return text

/-- Run the text that a shell is started with: that of `-c`, that of a file, or its input. -/
def shell : Run Unit := do
  let st ← get
  let rename (name : Octets) (args : List Octets) : Run Unit :=
    setScope { st.process.scope with name := name, args := args }
  match st.process.argv.drop 1 with
  | [] => script ((← takeInput).getD []) none
  | file :: args =>
    if file = Octets.ofString "-c" then
      match args with
      | [] => leave (.exited 2)
      | text :: rest =>
        rename (rest.headD (st.process.argv.headD [])) rest.tail
        let (lines, sound) := Statement.ofScript text.characters
        push (lines.map .run ++ if sound then [] else [.exit 2])
    else
      match OpenFile.ofPath st.machine.files ⟨file⟩ with
      | .error _ => leave (.exited 2)
      | .ok opened =>
        rename file args
        let (text, opened) := opened.rest st.machine.files
        script text (some opened)

def withVariables (args : List Octets) (vars : List (Octets × Octets)) : Run Unit := do
  let isSetting (arg : Octets) : Bool := arg.contains 61
  let vars := (args.takeWhile isSetting).foldl (fun vars arg =>
    let name := arg.takeWhile (· ≠ 61)
    vars.filter (·.1 ≠ name) ++ [(name, arg.drop (name.length + 1))]) vars
  match args.dropWhile isSetting with
  | [] =>
    print (vars.flatMap Programs.variableLine)
    leave (.exited 0)
  | argv => load (fun _ _ => true) argv vars

/-- Be a compiled program. One that reads its input waits until it is complete. -/
def program (name : String) : Run Unit := do
  let st ← get
  let args := st.process.argv.drop 1
  let input := st.process.descriptors.input
  if Programs.readsInput name args && st.machine.isWritten input then
    push [.program name]
    modifyProcess fun p => { p with wake := .closed input }
  else
    match name with
    | "sh" => shell
    | "env" => withVariables args st.process.scope.vars
    | "sleep" =>
      match Programs.sleep? args with
      | some micros =>
        push [.exit 0]
        pause micros
      | none => leave (.exited 1)
    | _ =>
      let text ← if Programs.readsInput name args then takeInput else pure none
      let vars := st.process.scope.vars
      match Programs.run st.machine.files st.machine.read? vars text name args with
      | some result =>
        print result.output
        leave (.exited (result.status : Nat))
      | none => leave (.exited 127)

/-! ## Builtins -/

def number? (o : Octets) : Option Nat := (decimal? o.characters).filter (· ≤ 0x7FFFFFFF)

def exit (args : List Octets) : Run Unit := do
  match args with
  | [] => leave (.exited (← scope).status)
  | arg :: _ =>
    match number? arg with
    | some n => leave (.exited (n % 256 : Nat))
    | none => leave (.exited 2)

def signal? (option : List Char) : Option Nat :=
  match number? (.ofCharacters option) with
  | some n => if n ≤ Signals.last then some n else none
  | none => Signals.ofName? (String.ofList (option.map Char.toUpper))

def isDeaf (p : Process) (signal : Nat) : Bool :=
  Signals.isHarmless signal || p.ignored.contains signal

/-- Send a signal to a process; `false` if there is none of that number. One that has ended and has
not been waited for is still there. -/
def sendTo (signal pid : Nat) : Run Bool := do
  let st ← get
  if pid = st.process.pid then
    if !isDeaf st.process signal then leave (.signaled (signal : Nat))
    return true
  else
    match st.machine.running.find? (·.pid = pid) with
    | some p =>
      if !isDeaf p signal then
        set { st with machine := st.machine.conclude p (.signaled (signal : Nat)) }
      return true
    | none => return st.machine.hasEnded pid

/-- Send a signal to one process after another. A signal that ends the sender leaves the rest
unsent. The status is that of the failures so far. -/
def sendEach (signal status : Nat) : List Octets → Run Unit
  | [] => finish status
  | arg :: rest => do
    match number? arg with
    | none => finish 2
    | some pid =>
      let sent ← sendTo signal pid
      if (← get).process.ended.isNone then sendEach signal (if sent then status else 1) rest

def send (signal : Nat) (pids : List Octets) : Run Unit :=
  if pids.isEmpty then finish 2 else sendEach signal 0 pids

def kill (args : List Octets) : Run Unit :=
  match args with
  | [] => finish 2
  | arg :: rest =>
    match arg.characters with
    | '-' :: option =>
      if option = ['s'] then
        match rest with
        | name :: pids =>
          match signal? name.characters with
          | some n => send n pids
          | none => finish 2
        | [] => finish 2
      else
        match signal? option with
        | some n => send n rest
        | none => finish 2
    | _ => send 15 args

def shift (args : List Octets) : Run Unit := do
  let s ← scope
  match args.head?.map number? with
  | some none => leave (.exited 2)
  | count =>
    let n := (count.join).getD 1
    if s.args.length < n then leave (.exited 2)
    else
      setScope { s with args := s.args.drop n }
      finish 0

def exportAll : List Octets → Run Unit
  | [] => finish 0
  | arg :: rest => do
    let name := arg.takeWhile (· ≠ 61)
    let s ← scope
    let assigned := if arg.contains 61 then s.assign name (arg.drop (name.length + 1)) else s
    setScope { assigned with exported := name :: s.exported }
    exportAll rest

/-- Wait for all children, or for these. The status is that of the last one of them that there is.
-/
def wait (args : List Octets) : Run Unit := do
  let p := (← get).process
  if args.isEmpty then await p.children none
  else
    match args.mapM number? with
    | none => finish 2
    | some pids =>
      let seen := pids.filter fun pid => p.children.contains pid || (p.known.lookup pid).isSome
      match seen.getLast? with
      | none => finish 127
      | some last => await (seen.filter p.children.contains) (some last)

def toLoop : Nat → List Work → List Work
  | _, [] => []
  | 0, w :: rest => if w.isLoop then w :: rest else toLoop 0 rest
  | outer + 1, w :: rest => if w.isLoop then toLoop outer rest else toLoop (outer + 1) rest

/-- Leave loops, or go on with the next round of the last of them. Descriptors are put back on the
way. Outside a loop this does nothing, but a process split off inside of one ends. -/
def breakLoops (goOn : Bool) (args : List Octets) : Run Unit := do
  match args.head?.map number? with
  | some none | some (some 0) => leave (.exited 2)
  | count =>
    let p := (← get).process
    finish 0
    let depth := min ((count.join).getD 1) (p.work.countP Work.isLoop)
    if depth = 0 then
      if p.inLoop then leave (.exited 0)
    else
      let target := toLoop (depth - 1) p.work
      let passed := p.work.take (p.work.length - target.length)
      let work := match target with
        | .decide whileTrue condition body _ :: rest =>
          if goOn then .again whileTrue condition body :: rest else rest
        | loop :: rest => if goOn then loop :: rest else rest
        | [] => []
      let before := (passed.filterMap Work.before?).getLast?.getD p.descriptors
      modifyProcess fun p => { p with work := work, descriptors := before }

def builtin (name : String) (args : List Octets) : Option (Run Unit) :=
  match name with
  | ":" | "true" => some (finish 0)
  | "false" => some (finish 1)
  | "echo" => some do print (Echo.withEscapes args); finish 0
  | "printf" => some do
    let (text, status) := Printf.run args
    print text
    finish status
  | "test" => some do finish (Condition.status (← get).machine.files args)
  | "[" => some do finish (Condition.bracketStatus (← get).machine.files args)
  | "exit" => some (exit args)
  | "kill" => some (kill args)
  | "shift" => some (shift args)
  | "wait" => some (wait args)
  | "export" => some (exportAll args)
  | "break" => some (breakLoops false args)
  | "continue" => some (breakLoops true args)
  | _ => none

/-! ## Statements -/

def assignAll (s : Scope) (assignments : List (List Char × Word)) : Scope :=
  assignments.foldl (fun s a => s.assign (.ofCharacters a.1) (s.text a.2)) s

/-- Run a simple statement. Without a word it sets variables; before a program, its assignments are
for that program only. A process that has nothing else to do becomes the program itself. -/
def simple (assignments : List (List Char × Word)) (words : List Word) : Run Unit := do
  let s ← scope
  let assigned := assignAll s assignments
  match words.flatMap s.fields with
  | [] =>
    setScope assigned
    finish 0
  | name :: args =>
    match builtin (Octets.lossy name) args with
    | some action => action
    | none =>
      let exported := assignments.map (fun a => Octets.ofCharacters a.1) ++ s.exported
      let vars := { assigned with exported := exported }.environment
      if name = Octets.ofString "exec" then
        if args.isEmpty then finish 0 else load (fun _ _ => true) args vars
      else
        let p := (← get).process
        if p.work.isEmpty then load Image.isExecutable (name :: args) vars
        else inChild [.load (name :: args) vars] p.descriptors

def statement : Statement → Run Unit
  | .nothing => finish 0
  | .simple assignments words => simple assignments words
  | .redirected redirections body => redirected redirections body
  | .pipe left right => pipe left right
  | .negated body => push [.run body, .negate]
  | .both left right => push [.run left, .joined true right]
  | .either left right => push [.run left, .joined false right]
  | .sequence first second => push [.run first, .run second]
  | .background body => background body
  | .subshell body => do
    let p := (← get).process
    if p.work.isEmpty then push [.run body] else inChild [.run body] p.descriptors
  | .choice condition yes no => push [.run condition, .choose yes no]
  | .loop whileTrue condition body => push [.run condition, .decide whileTrue condition body 0]
  | .forEach name items body => do
    let s ← scope
    let values := match items with
      | some words => words.flatMap s.fields
      | none => s.args
    finish 0
    push [.items (.ofCharacters name) body values]
  | .select subject patterns body next => do
    let s ← scope
    let text := (s.text subject).characters
    push [.run (if patterns.any fun w => (Pattern.ofWord s w).fits text then body else next)]

def act : Work → Run Unit
  | .run s => statement s
  | .restore before => setDescriptors before
  | .joined succeeded right => do
    if ((← scope).status = 0) = succeeded then push [.run right]
  | .negate => do finish (if (← scope).status = 0 then 1 else 0)
  | .choose yes no => do push [.run (if (← scope).status = 0 then yes else no)]
  | .decide whileTrue condition body status => do
    if ((← scope).status = 0) = whileTrue then push [.run body, .again whileTrue condition body]
    else finish status
  | .again whileTrue condition body => do
    push [.run condition, .decide whileTrue condition body (← scope).status]
  | .items _ _ [] => return ()
  | .items name body (item :: rest) => do
    setScope ((← scope).assign name item)
    push [.run body, .items name body rest]
  | .collect asked => collect asked
  | .lines rest sound file => readOn rest sound file
  | .load argv vars => load Image.isExecutable argv vars
  | .program name => program name
  | .ignore signals => modifyProcess fun p => { p with ignored := signals ++ p.ignored }
  | .exit status => leave (.exited (status : Nat))

/-- Do the first thing that is to be done. With nothing left to do, a process ends with its last
status. -/
def advance : Run Unit := do
  let p := (← get).process
  match p.work with
  | [] => leave (.exited (p.scope.status : Nat))
  | w :: rest =>
    modifyProcess fun p => { p with work := rest }
    act w

end Shell
end BootSequence
