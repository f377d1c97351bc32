/-
The command line of a launch.

`Engine::launch` puts the program between quotes and each argument after
a blank, as it is. Windows splits the line again for the program that is
started (`Lib/CommandLine.lean`). `command_line_splits_iff` says which
argument vectors arrive: those in which no argument is empty and none
has a blank or a quote in it.
-/
import DebugMcp.Lib.CommandLine
import DebugMcp.WinDbg.Breakpoints
import DebugMcp.WinDbg.Wait

namespace DebugMcp

/-- `CString::new`, with the engine's error. -/
def cString (message text : String) : Except EngineError String :=
  if '\x00' ∈ text.toList then .error (.engine message) else .ok text

/-- The command line, as `launch` builds it. -/
def commandLine (req : LaunchReq) : String :=
  req.args.foldl (fun cmdline arg => cmdline.push ' ' ++ arg)
    ("\"" ++ req.program ++ "\"")

/-- The texts `launch` passes to `CreateProcess2`. -/
def createProcessTexts (req : LaunchReq) :
    Except EngineError (String × Option String) := do
  let cmdline ← cString
    "launch: program/args contain an interior NUL byte" (commandLine req)
  match req.cwd with
  | some d =>
      let cwd ← cString
        "launch: working directory contains an interior NUL byte" d
      return (cmdline, some cwd)
  | none => return (cmdline, none)

/-- How Windows splits a command line. -/
def splitCommandLine (keeps : Bool) (cmdline : String) : List String :=
  (CommandLine.split keeps cmdline.toList).map String.ofList

/-- An argument that arrives as it is. -/
def PlainArg (arg : String) : Prop := CommandLine.Plain arg.toList

instance (arg : String) : Decidable (PlainArg arg) :=
  inferInstanceAs (Decidable (CommandLine.Plain _))

/-- The command line's characters. -/
theorem toList_commandLine (req : LaunchReq) :
    (commandLine req).toList =
      '"' :: req.program.toList ++
        '"' :: CommandLine.joined (req.args.map String.toList) := by
  have hargs : ∀ (args : List String) (line : String),
      (args.foldl (fun cmdline arg => cmdline.push ' ' ++ arg) line).toList
        = line.toList ++ CommandLine.joined (args.map String.toList) := by
    intro args
    induction args with
    | nil => exact fun line => (List.append_nil _).symm
    | cons arg args ih =>
        intro line
        rw [List.foldl_cons, ih, String.toList_append, String.toList_push,
          List.map_cons, CommandLine.joined, CommandLine.joined,
          List.flatMap_cons]
        simp only [List.append_assoc, List.cons_append, List.nil_append]
  rw [commandLine, hargs]
  simp only [String.toList_append, List.append_assoc]
  rfl

/-- No NUL in, no NUL out. -/
theorem cString_commandLine {req : LaunchReq} {message : String}
    (hp : '\x00' ∉ req.program.toList)
    (ha : ∀ arg ∈ req.args, '\x00' ∉ arg.toList) :
    cString message (commandLine req) = .ok (commandLine req) := by
  refine if_neg fun h => ?_
  rw [toList_commandLine] at h
  rcases List.mem_append.mp h with h | h
  · rcases List.mem_cons.mp h with h | h
    · cases h
    · exact hp h
  · rcases List.mem_cons.mp h with h | h
    · cases h
    · obtain ⟨w, hw, h⟩ := List.mem_flatMap.mp h
      obtain ⟨arg, harg, rfl⟩ := List.mem_map.mp hw
      rcases List.mem_cons.mp h with h | h
      · cases h
      · exact ha arg harg h

/-- Texts are what they are as characters. -/
theorem map_ofList_eq_iff {ws : List (List Char)} {args : List String} :
    ws.map String.ofList = args ↔ ws = args.map String.toList := by
  constructor
  · rintro rfl
    rw [List.map_map]
    exact (List.map_id'' (fun w => String.toList_ofList) ws).symm
  · rintro rfl
    rw [List.map_map]
    exact List.map_id'' (fun arg => String.ofList_toList) args

/-- What the program gets, and what it was meant to get. -/
theorem splitCommandLine_eq_iff (keeps : Bool) {req : LaunchReq}
    (hq : '"' ∉ req.program.toList) :
    splitCommandLine keeps (commandLine req) = req.program :: req.args ↔
      ∀ arg ∈ req.args, PlainArg arg := by
  have hprogram := CommandLine.program_quoted hq
    (CommandLine.joined_head (req.args.map String.toList))
  rw [splitCommandLine, map_ofList_eq_iff, CommandLine.split,
    toList_commandLine, hprogram, List.map_cons, List.cons.injEq]
  constructor
  · rintro ⟨-, h⟩ arg harg
    exact (CommandLine.split_joined_iff _).mp h _ (List.mem_map_of_mem harg)
  · intro h
    refine ⟨rfl, (CommandLine.split_joined_iff _).mpr ?_⟩
    intro w hw
    obtain ⟨arg, harg, rfl⟩ := List.mem_map.mp hw
    exact h arg harg

/-- A command line is split into the program and the arguments it was
built from if and only if every argument is plain. -/
theorem command_line_splits_iff (keeps : Bool) (req : LaunchReq)
    (hq : '"' ∉ req.program.toList) (hp : '\x00' ∉ req.program.toList)
    (ha : ∀ arg ∈ req.args, '\x00' ∉ arg.toList) :
    (∃ cmdline, cString "launch: program/args contain an interior NUL byte"
        (commandLine req) = .ok cmdline ∧
      splitCommandLine keeps cmdline = req.program :: req.args) ↔
    ∀ arg ∈ req.args, PlainArg arg := by
  rw [← splitCommandLine_eq_iff keeps hq]
  constructor
  · rintro ⟨cmdline, hc, hsplit⟩
    rw [cString_commandLine hp ha] at hc
    cases hc
    exact hsplit
  · intro h
    exact ⟨_, cString_commandLine hp ha, h⟩

/-- A program in a directory with a blank, with plain arguments. -/
def plainLaunch : LaunchReq where
  program := "C:\\Program Files\\app.exe"
  args := ["-o", "out\\dir\\"]
  cwd := none

/-- Its arguments arrive. -/
theorem plain_launch_splits :
    ∃ cmdline, cString "launch: program/args contain an interior NUL byte"
        (commandLine plainLaunch) = .ok cmdline ∧
      splitCommandLine true cmdline = plainLaunch.program :: plainLaunch.args :=
  (command_line_splits_iff true plainLaunch (by decide) (by decide)
    (by decide)).mpr (by decide)

/-- An argument with a blank. -/
def blankLaunch : LaunchReq where
  program := "app.exe"
  args := ["a b"]
  cwd := none

/-- It arrives as two, under either rule. -/
theorem blank_argument_splits :
    ∃ cmdline,
      cString "launch: program/args contain an interior NUL byte"
        (commandLine blankLaunch) = .ok cmdline ∧
      splitCommandLine false cmdline = ["app.exe", "a", "b"] ∧
      splitCommandLine true cmdline = ["app.exe", "a", "b"] ∧
      blankLaunch.program :: blankLaunch.args ≠ ["app.exe", "a", "b"] :=
  ⟨"\"app.exe\" a b", by decide, by decide, by decide, by decide⟩

end DebugMcp
