import TreeInspector.Proofs.CommandLine.Commands
import TreeInspector.Proofs.Desk.Listeners

/-!
# Starting a program

A program that has been started has opened its file and shows it: one source, one session, one
pane and three subscriptions have been made. A program whose clock has no date cannot be started,
since the opening of a file is logged.
-/

set_option autoImplicit false

namespace TreeInspector

namespace CommandLine

section

variable {w : ProgramWorld}

/-! ## Opening the file -/

/-- The scene that begins when a file is shown. -/
def Scene.opening (d : Desk) (f : SourceFile) (options : Options) : Scene :=
  Scene.showing ((Document.analyze Document.lenient f.text).root.render options.navigation)
    { desk := d
      file := f
      options := options
      lines := []
      pane := { title := "Parse Tree: " ++ f.name } }

end

end CommandLine

end TreeInspector
