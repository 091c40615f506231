import Stackwright.Program.Expr

/-!
# The entry point

The functions `main` and `run` of a program that can be started. `run` brings the project up until a signal
cancels it, and tears it down on the way out; a cancelled start is no failure.
-/

namespace Stackwright
namespace Program

/-- The variable that holds the project. -/
def projectVar : String := "proj"

/-- The function that builds the project. -/
def projectFunc : String := "Project"

/-- The function that runs the project. -/
def runFunc : String := "run"

/-- The variable that holds a failure. -/
def failure : Expr := .ident "err"

/-- The test that a call failed. -/
def failed : Expr := .binary .notEq failure (.literal .nil)

/-- Runs statements if a call fails. -/
def ifFails (call : Expr) (body : List Stmt) : Stmt :=
  .if (some (.define ["err"] call)) failed body

/-- The context that is never cancelled. -/
def background : Expr := .packageCall .context "Background" []

/-- The options of starting and stopping a project, after the arguments in front. -/
def lifecycleArgs (profiles : List String) (front : List Expr) : List Expr :=
  front ++ .packageCall .gantry "RemoveOrphans" [] ::
    if profiles.isEmpty then []
    else [.packageCall .gantry "WithProfiles" (profiles.map .string)]

/-- The function `main`. -/
def mainFunction : Func where
  name := "main"
  results := []
  body := [ifFails (.call runFunc []) [.expr (.packageCall .log "Fatal" [failure])]]

/-- Waits for a signal and then cancels. -/
def signalHandler : List Stmt :=
  [ .define ["sig"] (.call "make" [.type (.chan (.qualified .os "Signal")), .int 1]),
    .expr (.packageCall .signal "Notify"
      [.ident "sig", .qualified .os "Interrupt", .qualified .syscall "SIGTERM"]),
    .expr (.unary .receive (.ident "sig")),
    .expr (.call "cancel" []) ]

/-- Tears the project down and logs a failure. -/
def teardown (profiles : List String) : List Stmt :=
  [ ifFails (.methodCall (.ident projectVar) "Down" (lifecycleArgs profiles [background]))
      [.expr (.packageCall .log "Printf" [.string "teardown failed: %v", failure])] ]

/-- Brings the project up and returns a failure that is no cancellation. -/
def bringUp (profiles : List String) : Stmt :=
  .if
    (some (.define ["err"]
      (.methodCall (.ident projectVar) "Up"
        (lifecycleArgs profiles
          [.ident "ctx", .packageCall .gantry "WithProgress" [.qualified .os "Stdout"]]))))
    (.binary .and failed
      (.unary .not (.packageCall .errors "Is" [failure, .qualified .context "Canceled"])))
    [.return (some failure)]

/-- The function `run`. -/
def runFunction (profiles : List String) : Func where
  doc := [runFunc ++ " brings the deployment up and tears it down on exit or signal."]
  name := runFunc
  results := [.named "error"]
  body :=
    [ .define ["ctx", "cancel"] (.packageCall .context "WithCancel" [background]),
      .deferCall (.call "cancel" []),
      .blank,
      .go signalHandler,
      .blank,
      .define [projectVar] (.call projectFunc []),
      .defer (teardown profiles),
      .blank,
      bringUp profiles,
      .return (some (.literal .nil)) ]

/-- The functions of the entry point. -/
def entryPoint (profiles : List String) : List Func :=
  [mainFunction, runFunction profiles]

end Program
end Stackwright
