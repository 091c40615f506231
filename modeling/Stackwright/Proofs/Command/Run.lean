import Stackwright.Command.Run
import Stackwright.Proofs.Files.Writing
import Stackwright.Proofs.Generate
import Stackwright.Proofs.Outcome

/-!
# What a run changes

A run that fails prints nothing and leaves all files as they were, unless it is the standard
output that fails: then the run has done all its work, and only the end of what it prints is
missing.  A run that succeeds changes at most the file that it was asked to write, and puts
into it what the same run prints when it is not asked to write a file.  Help and the version
are printed instead of anything else that is asked for in the same arguments.

Main results:

- Theorem `parseFrom_withoutOutput`: arguments without the output option are understood
  in the same way but for the output.
- Theorem `run_cases`: what a run comes to, whatever its standard output takes.
- Theorem `System.finish_cases`: a text is printed as a whole, or the standard output cuts
  it off.
- Theorem `run_changes_only_output`: what a run prints and changes.
-/

namespace Stackwright
namespace Command

/-! ## Arguments without an output -/

/-- What is asked for, with the program to be printed. -/
def Arguments.toPrint (a : Arguments) : Arguments :=
  { a with output := none }

/-- The arguments without the output option and its value. -/
def withoutOutput : List String → List String
  | [] => []
  | argument :: rest =>
      match Shape.of argument with
      | .flag (.value option) (some _) =>
          if option = .output then withoutOutput rest else argument :: withoutOutput rest
      | .flag (.value option) none =>
          match rest with
          | [] => [argument]
          | value :: rest =>
              if option = .output then withoutOutput rest
              else argument :: value :: withoutOutput rest
      | _ => argument :: withoutOutput rest

example : withoutOutput ["-f", "-o", "--output", "x.go"] = ["-f", "-o"] := by decide

example : withoutOutput ["--output=x.go", "-f", "c.yaml", "-ox.go", "--main"]
    = ["-f", "c.yaml", "--main"] := by decide

/-- A run with descriptors and an output neither shows its usage nor prints its program. -/
theorem Arguments.not_prints {a : Arguments} {path : String} (hfiles : a.files ≠ [])
    (houtput : a.output = some path) : ¬ (a.files = [] ∨ a.output = none) := by
  simp [hfiles, houtput]

/-- The output is the only thing that the output option sets. -/
theorem Arguments.toPrint_of_set_output {a b : Arguments} {value : String}
    (h : a.set .output value = .ok b) : b.toPrint = a.toPrint := by
  simp only [set, bind_eq_ok_iff, pure_eq_ok_iff] at h
  obtain ⟨_, -, _, -, rfl⟩ := h
  rfl

/-- No other option looks at the output. -/
theorem Arguments.set_toPrint {a b : Arguments} {option : ValueOption} {value : String}
    (hne : option ≠ .output) (h : a.set option value = .ok b) :
    a.toPrint.set option value = .ok b.toPrint := by
  cases option with
  | output => exact absurd rfl hne
  | profile =>
      cases h
      rfl
  | file =>
      simp only [set, bind_eq_ok_iff, pure_eq_ok_iff] at h ⊢
      obtain ⟨path, hpath, rfl⟩ := h
      exact ⟨path, hpath, rfl⟩
  | envFile =>
      simp only [set, bind_eq_ok_iff, pure_eq_ok_iff] at h ⊢
      obtain ⟨path, hpath, envFile, honce, rfl⟩ := h
      exact ⟨path, hpath, envFile, honce, rfl⟩
  | package | projectName | apiModule =>
      simp only [set, bind_eq_ok_iff, pure_eq_ok_iff] at h ⊢
      obtain ⟨value, honce, rfl⟩ := h
      exact ⟨value, honce, rfl⟩

/-- Arguments without the output option are understood in the same way but for the output. -/
theorem parseFrom_withoutOutput {a b : Arguments} {arguments : List String}
    (h : parseFrom a arguments = .ok (.run b)) :
    parseFrom a.toPrint (withoutOutput arguments) = .ok (.run b.toPrint) := by
  fun_induction parseFrom a arguments with
  | case1 a =>
      cases h
      rfl
  | case4 a argument hshape =>
      cases h
      simp [withoutOutput, parseFrom, hshape]
  | case6 a argument rest option value hshape ih =>
      obtain ⟨next, hset, hnext⟩ := bind_eq_ok_iff.1 h
      rw [withoutOutput, hshape]
      by_cases houtput : option = .output
      · subst houtput
        simp only [if_true, ← Arguments.toPrint_of_set_output hset]
        exact ih next hnext
      · simp only [if_neg houtput]
        rw [parseFrom.eq_def]
        simp only [hshape, Arguments.set_toPrint houtput hset]
        exact ih next hnext
  | case8 a argument option hshape value rest hplain ih =>
      obtain ⟨next, hset, hnext⟩ := bind_eq_ok_iff.1 h
      rw [withoutOutput, hshape]
      by_cases houtput : option = .output
      · subst houtput
        simp only [if_true, ← Arguments.toPrint_of_set_output hset]
        exact ih next hnext
      · simp only [if_neg houtput, parseFrom, hshape, hplain, if_true,
          Arguments.set_toPrint houtput hset]
        exact ih next hnext
  | case14 a argument rest hshape hfirst ih =>
      have hprint : ¬ a.toPrint.emitMain = true := hfirst
      rw [withoutOutput, hshape, parseFrom.eq_def]
      simp only [hshape, if_neg hprint]
      exact ih h
  | case16 a argument rest hshape hfirst ih =>
      have hprint : ¬ a.toPrint.gofmt = true := hfirst
      rw [withoutOutput, hshape, parseFrom.eq_def]
      simp only [hshape, if_neg hprint]
      exact ih h
  | case2 | case3 | case5 | case7 | case9 | case10 | case11 | case12 | case13 | case15 => cases h

/-! ## The standard output -/

namespace System

/-- The system with another standard output. -/
def printingTo (s : System) (o : Stdout) : System :=
  { s with stdout := o }

/-- The system with a standard output that takes everything. -/
def intact (s : System) : System :=
  s.printingTo {}

/-- A run that prints its text as a whole. -/
theorem finish_intact (s : System) (outcome : Outcome) (files : FileTree) :
    s.intact.finish outcome files
      = { outcome, stdout := Text.encodeUtf8 (outcome.text s.usage), files } := rfl

/-- The text of a run is printed as a whole, or the standard output takes less than the whole of
it and the run fails; the files are the same. -/
theorem finish_cases (s : System) (outcome : Outcome) (files : FileTree) :
    s.finish outcome files = s.intact.finish outcome files
      ∨ ∃ room fault, s.stdout.stop = some (room, fault)
          ∧ room < (s.intact.finish outcome files).stdout.length
          ∧ s.finish outcome files
              = { outcome := .failed (.print fault)
                  stdout := (s.intact.finish outcome files).stdout.take room
                  files } := by
  simp only [finish_intact]
  cases hstop : s.stdout.stop with
  | none => exact .inl (by simp [finish, print, Stdout.print, hstop])
  | some stop =>
      obtain ⟨room, fault⟩ := stop
      by_cases hroom : (Text.encodeUtf8 (outcome.text s.usage)).length ≤ room
      · exact .inl (by simp [finish, print, Stdout.print, hstop, hroom])
      · refine .inr ⟨room, fault, rfl, by omega, ?_⟩
        simp [finish, print, Stdout.print, hstop, hroom]

end System

/-! ## How a run ends -/

/-- Generating a program depends neither on where it goes nor on the standard output. -/
theorem generateSource_toPrint (s : System) (a : Arguments) (o : Stdout) :
    generateSource (s.printingTo o) a.toPrint = generateSource s a := rfl

/-- A run with arguments that are understood stops with a failure, or finishes without writing
the program to a file, or finishes after writing the generated program to the file that it was
asked to write.  Which of these it is does not depend on the standard output. -/
theorem execute_cases (s : System) (a : Arguments) :
    (∃ failure, ∀ o, execute (s.printingTo o) a = (s.printingTo o).stop (.failed failure))
      ∨ (∃ outcome, outcome.status = 0 ∧ (a.files = [] ∨ a.output = none)
          ∧ ∀ o, execute (s.printingTo o) a = (s.printingTo o).finish outcome s.files)
      ∨ ∃ path source files, a.files ≠ [] ∧ a.output = some path
          ∧ generateSource s a = .ok source ∧ s.files.writeText path source = .ok files
          ∧ ∀ o, execute (s.printingTo o) a
              = (s.printingTo o).finish (.written path source) files := by
  have hsame (o : Stdout) : generateSource (s.printingTo o) a = generateSource s a := rfl
  have htree (o : Stdout) : (s.printingTo o).files = s.files := rfl
  by_cases hfiles : a.files = []
  · exact .inr (.inl ⟨.usage, rfl, .inl hfiles, fun o => by simp [execute, hfiles, htree]⟩)
  · cases hsource : generateSource s a with
    | error failure => exact .inl ⟨failure, fun o => by simp [execute, hfiles, hsame, hsource]⟩
    | ok source =>
        cases houtput : a.output with
        | none =>
            refine .inr (.inl ⟨.printed source, rfl, .inr rfl, fun o => ?_⟩)
            simp [execute, hfiles, hsame, hsource, deliver, houtput, htree]
        | some path =>
            cases hwrite : s.files.writeText path source with
            | error fault =>
                refine .inl ⟨.write path fault, fun o => ?_⟩
                simp [execute, hfiles, hsame, hsource, deliver, houtput, htree, hwrite]
            | ok files =>
                refine .inr (.inr ⟨path, source, files, hfiles, rfl, rfl, hwrite, fun o => ?_⟩)
                simp [execute, hfiles, hsame, hsource, deliver, houtput, htree, hwrite]

/-- What a run comes to, whatever its standard output takes: it stops with a failure, or it tells
help or the version, or it finishes without writing a file, or it finishes after writing the
program that it generated. -/
theorem run_cases (s : System) (arguments : List String) :
    (∃ outcome, outcome.status ≠ 0
        ∧ ∀ o, run (s.printingTo o) arguments = (s.printingTo o).stop outcome)
      ∨ (∃ outcome, outcome.status = 0 ∧ (∀ a, parse arguments ≠ .ok (.run a))
          ∧ ∀ o, run (s.printingTo o) arguments = (s.printingTo o).tell outcome)
      ∨ (∃ a outcome, parse arguments = .ok (.run a) ∧ outcome.status = 0
          ∧ (a.files = [] ∨ a.output = none)
          ∧ ∀ o, run (s.printingTo o) arguments = (s.printingTo o).finish outcome s.files)
      ∨ ∃ a path source files, parse arguments = .ok (.run a) ∧ a.files ≠ []
          ∧ a.output = some path ∧ generateSource s a = .ok source
          ∧ s.files.writeText path source = .ok files
          ∧ ∀ o, run (s.printingTo o) arguments
              = (s.printingTo o).finish (.written path source) files := by
  cases hparse : parse arguments with
  | error fault => exact .inl ⟨.misused fault, by simp [Outcome.status], fun o => by simp [run, hparse]⟩
  | ok invocation =>
      cases invocation with
      | help => exact .inr (.inl ⟨.usage, rfl, by simp, fun o => by simp [run, hparse]⟩)
      | version => exact .inr (.inl ⟨.version, rfl, by simp, fun o => by simp [run, hparse]⟩)
      | run a =>
          have hrun (o : Stdout) : run (s.printingTo o) arguments = execute (s.printingTo o) a := by
            simp [run, hparse]
          simp only [hrun]
          obtain ⟨failure, hend⟩ | ⟨outcome, hstatus, hprints, hend⟩ |
              ⟨path, source, files, hfiles, houtput, hsource, hwrite, hend⟩ := execute_cases s a
          · exact .inl ⟨.failed failure, by simp [Outcome.status], hend⟩
          · exact .inr (.inr (.inl ⟨a, outcome, rfl, hstatus, hprints, hend⟩))
          · exact .inr (.inr (.inr
              ⟨a, path, source, files, rfl, hfiles, houtput, hsource, hwrite, hend⟩))

/-- The program that a run writes to a file is what the run without an output prints. -/
theorem run_withoutOutput {s : System} {arguments : List String} {a : Arguments}
    {source : List Char} (hparse : parse arguments = .ok (.run a)) (hfiles : a.files ≠ [])
    (hsource : generateSource s a = .ok source) :
    parse (withoutOutput arguments) = .ok (.run a.toPrint)
      ∧ run s.intact (withoutOutput arguments)
          = { outcome := .printed source, stdout := Text.encodeUtf8 source, files := s.files } := by
  have hprint : parse (withoutOutput arguments) = .ok (.run a.toPrint) :=
    parseFrom_withoutOutput hparse
  refine ⟨hprint, ?_⟩
  have hempty : ¬ a.files.isEmpty = true := by simpa using hfiles
  rw [run, hprint, System.intact]
  simp only [execute, generateSource_toPrint, hsource]
  exact if_neg hempty

/-- What a run that finishes leaves if it does not succeed: the standard output took less than
everything, and all else is as if it had taken it. -/
theorem System.finish_failed {s : System} {outcome : Outcome} {files : FileTree}
    (hstatus : outcome.status = 0) (h : (s.finish outcome files).status ≠ 0) :
    ∃ room fault, s.stdout.stop = some (room, fault)
      ∧ (s.intact.finish outcome files).status = 0
      ∧ room < (s.intact.finish outcome files).stdout.length
      ∧ (s.finish outcome files).stdout = (s.intact.finish outcome files).stdout.take room
      ∧ (s.finish outcome files).files = (s.intact.finish outcome files).files := by
  obtain hwhole | ⟨room, fault, hstop, hroom, hcut⟩ := s.finish_cases outcome files
  · rw [hwhole] at h
    exact absurd hstatus h
  · exact ⟨room, fault, hstop, hstatus, hroom, by rw [hcut], by rw [hcut]; rfl⟩

/-- Finishing a run changes no files. -/
theorem System.files_finish (s : System) (outcome : Outcome) (files : FileTree) :
    (s.finish outcome files).files = files := by
  unfold finish
  split <;> rfl

/-- A run that fails prints nothing and changes no file, unless its standard output fails: then it
prints less than the run with a standard output that takes everything, which succeeds, and leaves
the files as that run does.  A run that succeeds without both descriptors and an output, or that
prints help or the version, changes no file.  A run that succeeds with both changes the file at the
output and no other, and the file then holds what the run without the output prints. -/
theorem run_changes_only_output (s : System) (arguments : List String) :
    ((run s arguments).status ≠ 0 →
        ((run s arguments).files = s.files ∧ (run s arguments).stdout = [])
          ∨ ∃ room fault, s.stdout.stop = some (room, fault)
              ∧ (run s.intact arguments).status = 0
              ∧ room < (run s.intact arguments).stdout.length
              ∧ (run s arguments).stdout = (run s.intact arguments).stdout.take room
              ∧ (run s arguments).files = (run s.intact arguments).files)
      ∧ ((run s arguments).status = 0 →
          (∀ a, parse arguments = .ok (.run a) → a.files = [] ∨ a.output = none) →
            (run s arguments).files = s.files)
      ∧ ∀ a path, parse arguments = .ok (.run a) → a.files ≠ [] → a.output = some path →
          (run s arguments).status = 0 →
            parse (withoutOutput arguments) = .ok (.run { a with output := none })
              ∧ (run s.intact (withoutOutput arguments)).status = 0
              ∧ ∃ place, s.files.follow path (FileTree.targetNames path) = .ok place
                  ∧ (run s arguments).files.at? place
                      = some (.file (run s.intact (withoutOutput arguments)).stdout)
                  ∧ ∀ other, other ≠ place →
                      (run s arguments).files.at? other = s.files.at? other := by
  have hself : run s arguments = run (s.printingTo s.stdout) arguments := rfl
  obtain ⟨outcome, hstatus, hend⟩ | ⟨outcome, hstatus, hnone, hend⟩ |
      ⟨a, outcome, hparse, hstatus, hprints, hend⟩ |
      ⟨a, path, source, files, hparse, hfiles, houtput, hsource, hwrite, hend⟩ :=
    run_cases s arguments
  · rw [hself, hend]
    exact ⟨fun _ => .inl ⟨rfl, rfl⟩, fun h => absurd h hstatus, fun _ _ _ _ _ h => absurd h hstatus⟩
  · rw [hself, hend]
    exact ⟨fun h => absurd hstatus h, fun _ _ => rfl, fun a _ hparse => absurd hparse (hnone a)⟩
  · rw [hself, hend, System.intact, hend]
    refine ⟨fun h => .inr (System.finish_failed hstatus h), fun _ _ => System.files_finish .., ?_⟩
    intro b path hb hfiles houtput
    obtain rfl : a = b := by simpa [hparse] using hb
    exact absurd hprints (Arguments.not_prints hfiles houtput)
  · obtain ⟨hwithout, hprinted⟩ := run_withoutOutput hparse hfiles hsource
    rw [hprinted, hself, hend, System.intact, hend]
    refine ⟨fun h => .inr (System.finish_failed rfl h), fun _ hnone => ?_, ?_⟩
    · exact absurd (hnone a hparse) (Arguments.not_prints hfiles houtput)
    · intro b target hb _ htarget _
      obtain rfl : a = b := by simpa [hparse] using hb
      obtain rfl : path = target := by simpa [houtput] using htarget
      rw [System.files_finish]
      exact ⟨hwithout, rfl, FileTree.writeText_frame hwrite⟩

/-- A working directory with a descriptor, an empty environment and no formatter. -/
def webSystem : System where
  files :=
    { workdir := ["work"]
      nodes := [(["work", "c.yaml"],
        .file (Text.encodeUtf8 "services: {web: {image: nginx}}".toList))] }
  environment := fun _ => none
  formatter := none

/-- A program is generated in this directory, wherever it goes. -/
theorem generateSource_webSystem (output : Option String) :
    ∃ source, generateSource webSystem { files := ["c.yaml"], output } = .ok source := by
  have hfound : ["c.yaml"].find? (!webSystem.files.contains ·) = none := by decide +kernel
  have hpasses : (Project.load webSystem.files webSystem.environment
      { files := ["c.yaml"] }).toOption.map
        (fun p => (collision? p.serviceCodes, (p.programFile {}).wellFormed))
          = some (none, true) := by
    decide +kernel
  rw [generateSource, hfound]
  simp only [Arguments.loadOptions]
  cases hload : Project.load webSystem.files webSystem.environment { files := ["c.yaml"] } with
  | error e =>
      rw [hload] at hpasses
      cases hpasses
  | ok p =>
      rw [hload] at hpasses
      have hboth : (collision? p.serviceCodes, (p.programFile {}).wellFormed) = (none, true) :=
        Option.some.inj hpasses
      obtain ⟨hnone, hwell⟩ := Prod.mk.inj hboth
      obtain ⟨c, hc, -⟩ | ⟨-, hill, -⟩ | ⟨-, -, text, htext⟩ := p.generate_cases {}
      · rw [hnone] at hc
        cases hc
      · rw [hwell] at hill
        cases hill
      · exact ⟨text, by simp [Except.mapError, bind, Except.bind, Arguments.generateOptions,
          webSystem, htext]⟩

/-- The program of this directory is written to any file that can be followed to a place. -/
theorem run_webSystem {arguments : List String} {path : String} {place : List String}
    (hparse : parse arguments = .ok (.run { files := ["c.yaml"], output := some path }))
    (hfollow : webSystem.files.follow path (FileTree.targetNames path) = .ok place)
    (hfile : webSystem.files.at? place ≠ some .directory) :
    ∃ source, ∀ o, run (webSystem.printingTo o) arguments
      = (webSystem.printingTo o).finish (.written path source)
          (webSystem.files.put place (.file (Text.encodeUtf8 source))) := by
  obtain ⟨source, hsource⟩ := generateSource_webSystem (some path)
  have hwrite : webSystem.files.writeText path source
      = .ok (webSystem.files.put place (.file (Text.encodeUtf8 source))) := by
    rw [FileTree.writeText, hfollow]
    exact if_neg hfile
  refine ⟨source, fun o => ?_⟩
  have hsame : generateSource (webSystem.printingTo o) { files := ["c.yaml"], output := some path }
      = .ok source := hsource
  have htree : (webSystem.printingTo o).files = webSystem.files := rfl
  simp only [run, hparse, execute, hsame, deliver, htree, hwrite]
  exact if_neg (by simp)

/-- The program replaces the descriptor that it was generated from. -/
theorem run_changes_only_output_inPlace :
    let arguments := ["-f", "c.yaml", "--output=./c.yaml"]
    (run webSystem arguments).status = 0
      ∧ withoutOutput arguments = ["-f", "c.yaml"]
      ∧ (run webSystem arguments).files.at? ["work", "c.yaml"]
          = some (.file (run webSystem ["-f", "c.yaml"]).stdout)
      ∧ (run webSystem arguments).files.at? ["work"] = some .directory := by
  intro arguments
  have hparse : parse arguments
      = .ok (.run { files := ["c.yaml"], output := some "./c.yaml" }) := by decide +kernel
  have hfollow : webSystem.files.follow "./c.yaml" (FileTree.targetNames "./c.yaml")
      = .ok ["work", "c.yaml"] := by decide +kernel
  have hfile : webSystem.files.at? ["work", "c.yaml"] ≠ some .directory := by decide +kernel
  obtain ⟨source, hrun⟩ := run_webSystem hparse hfollow hfile
  have hstatus : (run webSystem arguments).status = 0 := congrArg Effect.status (hrun {})
  obtain ⟨-, -, hwritten⟩ := run_changes_only_output webSystem arguments
  obtain ⟨-, -, place, hplace, hnew, hframe⟩ := hwritten _ "./c.yaml" hparse (by decide) rfl hstatus
  obtain rfl : ["work", "c.yaml"] = place := by simpa [hfollow] using hplace
  have hwithout : withoutOutput arguments = ["-f", "c.yaml"] := by decide +kernel
  rw [hwithout] at hnew
  have hwork : webSystem.files.at? ["work"] = some .directory := by decide +kernel
  exact ⟨hstatus, hwithout, hnew, (hframe ["work"] (by decide)).trans hwork⟩

/-- A standard output that takes nothing. -/
def closedOutput : Stdout where
  stop := some (0, .brokenPipe)

/-- The version is printed instead of writing the program that is asked for as well, and a run with
a standard output that takes nothing fails after its program is written. -/
theorem run_version_or_closed_output :
    ((run webSystem ["-f", "c.yaml", "-o", "out.go", "--version"]).status = 0
        ∧ (run webSystem ["-f", "c.yaml", "-o", "out.go", "--version"]).files.at? ["work", "out.go"]
            = none
        ∧ withoutOutput ["-f", "c.yaml", "-o", "out.go", "--version"]
            = ["-f", "c.yaml", "--version"]
        ∧ (run webSystem ["-f", "c.yaml", "--version"]).stdout
            = Text.encodeUtf8 "gantry 0.1.0\n".toList)
      ∧ (run (webSystem.printingTo closedOutput) ["-f", "c.yaml", "-o", "out.go"]).status = 1
      ∧ webSystem.files.at? ["work", "out.go"] = none
      ∧ (run (webSystem.printingTo closedOutput) ["-f", "c.yaml", "-o", "out.go"]).files.at?
          ["work", "out.go"] ≠ none := by
  have hparse : parse ["-f", "c.yaml", "-o", "out.go"]
      = .ok (.run { files := ["c.yaml"], output := some "out.go" }) := by decide +kernel
  have hfollow : webSystem.files.follow "out.go" (FileTree.targetNames "out.go")
      = .ok ["work", "out.go"] := by decide +kernel
  have hmissing : webSystem.files.at? ["work", "out.go"] = none := by decide +kernel
  obtain ⟨source, hrun⟩ := run_webSystem hparse hfollow (by rw [hmissing]; simp)
  refine ⟨by decide +kernel, ?_, hmissing, ?_⟩
  · obtain ⟨first, rest, hfirst⟩ : ∃ first rest, Text.encodeUtf8 (summary "out.go" source ++ ['\n'])
        = first :: rest := ⟨_, _, rfl⟩
    rw [hrun]
    simp [System.finish, System.print, Stdout.print, System.printingTo, closedOutput, Outcome.text,
      hfirst, Effect.status, Outcome.status]
  · rw [hrun, System.files_finish, FileTree.at?_put_self]
    simp

end Command
end Stackwright
