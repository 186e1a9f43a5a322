import MiniScheme.Prompt

/-! The command line: with a file, evaluate it; without, read lines until the input ends. -/
namespace MiniScheme.Main

structure Options where
  file : Option String
  name : Option String

/-- The first plain argument is the file; a name follows its option. -/
def options : List String → Options
  | "--name" :: name :: rest => { options rest with name := some name }
  | "-n" :: name :: rest => { options rest with name := some name }
  | arg :: rest =>
    let others := options rest
    { others with file := some arg }
  | [] => ⟨none, none⟩

def write (t : Transcript) : IO Unit := do
  let stdout ← IO.getStdout
  let stderr ← IO.getStderr
  stdout.putStr t.out
  stdout.flush
  stderr.putStr t.err
  stderr.flush

partial def loop (ev : Evaluator) (name : Option String) (prompt : Prompt) : IO Unit := do
  let stdin ← IO.getStdin
  let line ← stdin.getLine
  if line.isEmpty then return
  let (next, written) := prompt.feed ev name line
  write written
  loop ev name next

end MiniScheme.Main

def main (args : List String) : IO UInt32 := do
  let opts := MiniScheme.Main.options args
  let ev := MiniScheme.Evaluator.ofFuel MiniScheme.ampleFuel
  match opts.file with
  | none =>
    MiniScheme.Main.loop ev opts.name MiniScheme.Prompt.start
    return 0
  | some path =>
    let text ← IO.FS.readFile path
    let t := MiniScheme.runFile ev text (opts.name.getD path)
    MiniScheme.Main.write t
    return t.exit.toUInt32
